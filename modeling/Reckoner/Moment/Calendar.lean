import Reckoner.Moment.Error
import Reckoner.Text.Integer

/-!
# The calendar

The proleptic Gregorian calendar: leap years, lengths of months, and the count of days.

`daysOfCivil` counts the days from 1970-01-01 to a date and `dateOfDay` goes back. Both count in
eras of 400 years, which all have the same number of days, and in years that begin in March, so
that the leap day is the last day of its year. Moments show their dates through `civilOfDays`, where
a year is a 32-bit number.
-/

namespace Reckoner

/-- The low bits of a number, as a two's complement number of the given width. -/
def narrow (bits : Nat) (n : Int) : Int := n.bmod (2 ^ bits)

/-- A date of the calendar. -/
structure CivilDate where
  year : Int
  month : Nat
  day : Nat
deriving DecidableEq, Repr

/-- A time of day. -/
structure ClockTime where
  hour : Nat
  minute : Nat
  second : Nat
  nanosecond : Nat
deriving DecidableEq, Repr

namespace Calendar

/-- The years that dates may have. -/
def minYear : Int := -999999

def maxYear : Int := 999999

abbrev InYears (year : Int) : Prop := minYear ≤ year ∧ year ≤ maxYear

def isLeapYear (year : Int) : Bool :=
  (year % 4 == 0 && year % 100 != 0) || year % 400 == 0

/-- The lengths of the months of a common year. -/
def monthLengths : List Nat := [31, 28, 31, 30, 31, 30, 31, 31, 30, 31, 30, 31]

/-- The number of days of a month; 0 for a month that does not exist. -/
def daysInMonth (year : Int) (month : Nat) : Nat :=
  if month = 2 ∧ isLeapYear year then 29
  else if month = 0 then 0
  else monthLengths.getD (month - 1) 0

def daysInYear (year : Int) : Nat := if isLeapYear year then 366 else 365

def monthNames : List String :=
  ["January", "February", "March", "April", "May", "June", "July", "August", "September",
    "October", "November", "December"]

def weekdayNames : List String :=
  ["Monday", "Tuesday", "Wednesday", "Thursday", "Friday", "Saturday", "Sunday"]

/-- The days of an era of 400 years. -/
def daysPerEra : Int := 146097

/-- The days from 0000-03-01 to 1970-01-01. -/
def epochDay : Int := 719468

/-- The number of a day, counted from 1970-01-01. -/
def daysOfCivil (d : CivilDate) : Int :=
  -- A year begins in March here; January and February end the year before.
  let year := if d.month ≤ 2 then d.year - 1 else d.year
  let era := year / 400
  let yearOfEra := year - era * 400
  let month : Int := if 2 < d.month then d.month - 3 else d.month + 9
  -- From March on, five months in a row have 153 days.
  let dayOfYear := (153 * month + 2) / 5 + d.day - 1
  let dayOfEra := yearOfEra * 365 + yearOfEra / 4 - yearOfEra / 100 + dayOfYear
  era * daysPerEra + dayOfEra - epochDay

/-- The date of a day, counted from 1970-01-01. -/
def dateOfDay (days : Int) : CivilDate :=
  let z := days + epochDay
  let era := z / daysPerEra
  let dayOfEra := z - era * daysPerEra
  -- Without its leap days an era is 400 times 365 days.
  let yearOfEra :=
    (dayOfEra - dayOfEra / 1460 + dayOfEra / 36524 - dayOfEra / 146096) / 365
  let year := yearOfEra + era * 400
  let dayOfYear := dayOfEra - (365 * yearOfEra + yearOfEra / 4 - yearOfEra / 100)
  let month := (5 * dayOfYear + 2) / 153
  let day := dayOfYear - (153 * month + 2) / 5 + 1
  let month := if month < 10 then month + 3 else month - 9
  { year := if month ≤ 2 then year + 1 else year
    month := month.toNat
    day := day.toNat }

/-- The date of a day with its year kept to 32 bits. -/
def civilOfDays (days : Int) : CivilDate :=
  let d := dateOfDay days
  { d with year := narrow 32 d.year }

/-- Fails for a date that is not in the calendar. -/
def checkDate (d : CivilDate) : Except DateError Unit :=
  if ¬ InYears d.year then .error .outOfRange
  else if d.month < 1 ∨ 12 < d.month then .error (.month d.month)
  else if d.day < 1 ∨ daysInMonth d.year d.month < d.day then
    .error (.day d.day d.month d.year)
  else .ok ()

/-- Fails for a time that is not on the clock. -/
def checkTime (t : ClockTime) : Except DateError Unit :=
  if 23 < t.hour then .error (.hour t.hour)
  else if 59 < t.minute then .error (.minute t.minute)
  else if 59 < t.second then .error (.second t.second)
  else if 10 ^ 9 ≤ t.nanosecond then .error (.nanosecond t.nanosecond)
  else .ok ()

end Calendar

end Reckoner
