import Reckoner.Moment.Basic
import Reckoner.Quantity

/-!
# Shifting moments

Moments are shifted by nanoseconds, by days and by calendar months, and by time quantities. A whole
number of calendar units counts months, with the day of the month cut to the length of the month it
lands in; any other duration is applied to the nanosecond. The difference of two moments is an
exact number of seconds.
-/

namespace Reckoner.Moment

/-- More nanoseconds than lie between 1970 and any date in range. -/
def maxNanos : Int := (Calendar.maxYear + 1) * 366 * nanosPerDay

def addNanos (m : Moment) (n : Int) : Except DateError Moment :=
  let shifted : Moment := ⟨m.nanos + n, m.offset⟩
  if ¬ FitsSigned 128 shifted.nanos then .error .outOfRange
  else if maxNanos < shifted.nanos.natAbs then .error .outOfRange
  else if Calendar.InYears shifted.year then .ok shifted
  else .error .outOfRange

def addDays (m : Moment) (n : Int) : Except DateError Moment := m.addNanos (n * nanosPerDay)

/-- Adds calendar months. The day is cut to the length of the target month, so that a month after
31 January is the last of February. -/
def addMonths (m : Moment) (n : Int) : Except DateError Moment :=
  let d := m.date
  let months := d.year * 12 + (d.month - 1) + n
  let year := months / 12
  if ¬ FitsSigned 64 months then .error .outOfRange
  else if ¬ Calendar.InYears year then .error .outOfRange
  else
    let month := (months % 12 + 1).toNat
    let day := min d.day (Calendar.daysInMonth year month)
    let localNanos := Calendar.daysOfCivil ⟨year, month, day⟩ * nanosPerDay + m.nanosOfDay
    .ok ⟨localNanos - offsetNanos m.offset, m.offset⟩

def addYears (m : Moment) (n : Int) : Except DateError Moment :=
  if FitsSigned 64 (n * 12) then m.addMonths (n * 12) else .error .outOfRange

/-- Shifts by a duration in seconds, rounded to nanoseconds. -/
def addSeconds (m : Moment) (seconds : Number) : Except DateError Moment :=
  match seconds.toRat? with
  | none => .error .outOfRange
  | some r =>
    let nanos := Number.roundRat (r * nanosPerSecond)
    if FitsSigned 128 nanos then m.addNanos nanos else .error .outOfRange

/-- Shifts by a time quantity. -/
def addQuantity (m : Moment) (q : Quantity) : Except DateError Moment :=
  if q.dimension ≠ .time ∨ ¬ q.unit.adHoc.isEmpty then .error (.notADuration q.unit.symbol)
  else
    match q.unit.calendarMonths with
    | some months =>
      if q.value.isInteger then
        match q.value.toInt64? with
        | some n =>
          if FitsSigned 64 (n * months) then m.addMonths (n * months) else .error .outOfRange
        | none => .error .outOfRange
      else m.addSeconds q.coherentValue
    | none => m.addSeconds q.coherentValue

def subQuantity (m : Moment) (q : Quantity) : Except DateError Moment := m.addQuantity q.neg

/-- The unit of differences. -/
def secondUnit : MeasureUnit := .new "s" "second" .time (Number.ofInt 1) "time"

/-- The exact time from `b` to `a`. -/
def difference (a b : Moment) : Quantity :=
  ⟨.exact (Rat.divInt (a.nanos - b.nanos) nanosPerSecond), secondUnit⟩

end Reckoner.Moment
