import Reckoner.Function.Basic
import Reckoner.Moment.Reader
import Reckoner.Unit.Expression

/-!
# Date functions

Making moments from fields and from text, writing them, taking their fields apart, and calendar
arithmetic. Durations are time quantities.
-/

namespace Reckoner.Function

/-- A year among the arguments. -/
def yearArg (c : Call) (i : Nat) : Except Diagnostic Int := c.integer i (FitsSigned 32 ·)

/-- A field of a date or a clock time among the arguments. -/
def fieldArg (c : Call) (i : Nat) : Except Diagnostic Nat := do
  return (← c.integer i (FitsUnsigned 32 ·)).toNat

/-- A year, a month and a day, the first three arguments. -/
def dateArgs (c : Call) : Except Diagnostic CivilDate := do
  return ⟨← yearArg c 0, ← fieldArg c 1, ← fieldArg c 2⟩

/-- An hour, a minute and perhaps a second, from position `i` on. -/
def timeArgs (c : Call) (i : Nat) : Except Diagnostic ClockTime := do
  return ⟨← fieldArg c i, ← fieldArg c (i + 1), ← c.optional (i + 2) 0 (fieldArg c), 0⟩

def date : Function := define
  { name := "date"
    description := "Midnight UTC of a calendar date"
    usage := "date(year, month, day)"
    parameters := [⟨"year", "Number", "Year", none⟩, ⟨"month", "Number", "Month (1-12)", none⟩,
      ⟨"day", "Number", "Day of month", none⟩]
    returns := "DateTime"
    examples := ["date(2025, 6, 15) → 2025-06-15T00:00:00Z", "date(2024, 2, 30) → INVALID_DATE"]
    category := "datetime"
    related := ["datetime", "time", "parse_date"] }
  fun c => do
    let d ← dateArgs c
    return .moment (← Diagnostic.lift .ofDate (Moment.ofDate d))

def datetime : Function := define
  { name := "datetime"
    description := "UTC instant from calendar and clock fields"
    usage := "datetime(year, month, day, hour, minute, second?)"
    parameters := [⟨"year", "Number", "Year", none⟩, ⟨"month", "Number", "Month (1-12)", none⟩,
      ⟨"day", "Number", "Day of month", none⟩, ⟨"hour", "Number", "Hour (0-23)", none⟩,
      ⟨"minute", "Number", "Minute (0-59)", none⟩,
      ⟨"second", "Number", "Second (0-59)", some "0"⟩]
    returns := "DateTime"
    examples := ["datetime(2025, 6, 15, 14, 30) → 2025-06-15T14:30:00Z"]
    category := "datetime"
    related := ["date", "time"] }
  fun c => do
    let d ← dateArgs c
    let t ← timeArgs c 3
    return .moment (← Diagnostic.lift .ofDate (Moment.ofFields d t none))

def time : Function := define
  { name := "time"
    description := "Today's date at the given clock time"
    usage := "time(hour, minute, second?)"
    parameters := [⟨"hour", "Number", "Hour (0-23)", none⟩,
      ⟨"minute", "Number", "Minute (0-59)", none⟩,
      ⟨"second", "Number", "Second (0-59)", some "0"⟩]
    returns := "DateTime"
    examples := ["time(9, 30) → today at 09:30"]
    category := "datetime"
    related := ["now", "datetime"] }
  fun c => do
    let t ← timeArgs c 0
    return .moment (← Diagnostic.lift .ofDate (c.environment.now.atTime t))

def now : Function := define
  { name := "now"
    description := "The evaluation clock reading"
    usage := "now()"
    parameters := []
    returns := "DateTime"
    examples := ["now()"]
    category := "datetime"
    related := ["time", "date"] }
  fun c => return .moment c.environment.now

def parseDate : Function := define
  { name := "parse_date"
    description := "Parse ISO 8601 text into a DateTime"
    usage := "parse_date(text)"
    parameters := [⟨"text", "Text", "ISO 8601 date or datetime", none⟩]
    returns := "DateTime"
    examples := ["parse_date(\"2025-06-15\")", "parse_date(\"2025-06-15T14:30:00+02:00\")"]
    category := "datetime"
    related := ["format_date", "date"] }
  fun c => do
    let text ← c.text 0
    return .moment (← Diagnostic.lift .ofDate (Moment.ofText text))

/-- The pattern of dates written without one. -/
def defaultPattern : String := "YYYY-MM-DD"

def formatDate : Function := define
  { name := "format_date"
    description := "Format a DateTime with a pattern"
    usage := "format_date(dt, pattern?)"
    parameters := [⟨"dt", "DateTime", "DateTime to format", none⟩,
      ⟨"pattern", "Text", "Pattern (YYYY, MM, DD, HH, mm, ss, MMMM, dddd, ...)",
        some defaultPattern⟩]
    returns := "Text"
    examples := ["format_date(2025-06-15) → \"2025-06-15\"",
      "format_date(2025-06-15, \"dddd, MMMM D\") → \"Sunday, June 15\""]
    category := "datetime"
    related := ["parse_date"] }
  fun c => do
    let m ← c.moment 0
    return .text (m.format (← c.optional 1 defaultPattern c.text))

/-- A function that takes one field of a moment. -/
def field (name description : String) (examples : List String) (field : Moment → Int) : Function :=
  define
    { name, description
      usage := name ++ "(dt)"
      parameters := [⟨"dt", "DateTime", "DateTime to extract from", none⟩]
      returns := "Number"
      examples
      category := "datetime"
      related := ["date", "format_date"] }
    fun c => return .number (.ofInt (field (← c.moment 0)))

def fields : List Function := [
  field "year" "Calendar year" ["year(2025-06-15) → 2025"] Moment.year,
  field "month" "Month of year (1-12)" ["month(2025-06-15) → 6"] fun m => m.month,
  field "day" "Day of month" ["day(2025-06-15) → 15"] fun m => m.day,
  field "hour" "Hour (0-23)" ["hour(2025-06-15 14:30) → 14"] fun m => m.hour,
  field "minute" "Minute (0-59)" ["minute(2025-06-15 14:30) → 30"] fun m => m.minute,
  field "second" "Second (0-59)" ["second(2025-06-15 14:30:05) → 5"] fun m => m.second,
  field "weekday" "ISO day of week (1 = Monday, 7 = Sunday)" ["weekday(2025-06-15) → 7"]
    fun m => m.weekday,
  field "dayofyear" "Day of year (1-366)" ["dayofyear(2025-02-01) → 32"] fun m => m.dayOfYear,
  field "week" "ISO 8601 week number" ["week(2025-01-01) → 1"] fun m => m.isoWeek]

def addMonths : Function := define
  { name := "add_months"
    description := "Shift by calendar months, clamping to the last day of the month"
    usage := "add_months(dt, months)"
    parameters := [⟨"dt", "DateTime", "Starting date", none⟩,
      ⟨"months", "Number", "Whole months to add (may be negative)", none⟩]
    returns := "DateTime"
    examples := ["add_months(2025-01-31, 1) → 2025-02-28"]
    category := "datetime"
    related := ["diff"] }
  fun c => do
    let m ← c.moment 0
    let months ← c.integer 1 (FitsSigned 64 ·)
    return .moment (← Diagnostic.lift .ofDate (m.addMonths months))

def diff : Function := define
  { name := "diff"
    description := "Elapsed time between two instants"
    usage := "diff(end, start, unit?)"
    parameters := [⟨"end", "DateTime", "Later instant", none⟩,
      ⟨"start", "DateTime", "Earlier instant", none⟩,
      ⟨"unit", "Text", "Time unit of the result", some "s"⟩]
    returns := "Quantity"
    examples := ["diff(2025-03-01, 2025-02-01, \"d\") → 28 d",
      "diff(2025-01-01 12:00, 2025-01-01 09:30) → 9000 s"]
    category := "datetime"
    related := ["add_months"] }
  fun c => do
    let last ← c.moment 0
    let first ← c.moment 1
    let elapsed := last.difference first
    let inUnit (i : Nat) : Except Diagnostic Quantity := do
      let u ← parseUnit (← c.text i)
      Diagnostic.lift .ofConversion (elapsed.convert u)
    return .quantity (← c.optional 2 elapsed inUnit)

def dates : List Function :=
  [date, datetime, time, now, parseDate, formatDate, addMonths, diff] ++ fields

end Reckoner.Function
