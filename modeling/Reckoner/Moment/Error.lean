import Reckoner.Text.Digits
import Reckoner.Text.Split

/-!
# Date errors

Why a date or a time of day cannot be had, and the message of each cause.
-/

namespace Reckoner

/-- A natural number with leading zeros up to a width. -/
def paddedDecimal (width n : Nat) : String :=
  String.ofList (Text.padStart '0' width (Text.decimalDigits n))

inductive DateError where
  | month (month : Nat)
  | day (day month : Nat) (year : Int)
  | hour (hour : Nat)
  | minute (minute : Nat)
  | second (second : Nat)
  | nanosecond (nanosecond : Nat)
  | malformed (details : String)
  | outOfRange
  | notADuration (unit : String)
  /-- The text of a zone offset has no middle: its second byte lies inside a character. -/
  | splitCharacter
deriving DecidableEq

def DateError.message : DateError → String
  | month m => "Invalid month: " ++ Text.decimal m ++ " (must be 1-12)"
  | day d m y =>
    "Invalid day: " ++ Text.decimal d ++ " for " ++ Text.decimalInt y ++ "-" ++ paddedDecimal 2 m
  | hour h => "Invalid hour: " ++ Text.decimal h ++ " (must be 0-23)"
  | minute m => "Invalid minute: " ++ Text.decimal m ++ " (must be 0-59)"
  | second s => "Invalid second: " ++ Text.decimal s ++ " (must be 0-59)"
  | nanosecond n => "Invalid nanosecond: " ++ Text.decimal n
  | malformed details => "Parse error: " ++ details
  | outOfRange => "Date out of range"
  | notADuration unit => "Cannot shift a date by " ++ unit ++ ": not a time quantity"
  | splitCharacter => "Zone offset cut inside a character"

end Reckoner
