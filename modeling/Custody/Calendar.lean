/-!
# Dates and times

An instant is a number of milliseconds since the start of 1970.  It is shown as date and time of day
of the Gregorian calendar, without leap seconds and at no offset from UTC.
-/

namespace Custody.Calendar

/-- A date. -/
structure Date where
  year : Nat
  month : Nat
  day : Nat
  deriving DecidableEq, Repr

def epochDay : Nat := 719468

/-- The date after so many days since 1 March of year 0.  Years are counted from March, so that a
leap day is the last of its year; in these years the months' first days are at regular places. -/
def dateOfDay (days : Nat) : Date :=
  let era := days / 146097
  let dayOfEra := days % 146097
  let yearOfEra := (dayOfEra - dayOfEra / 1460 + dayOfEra / 36524 - dayOfEra / 146096) / 365
  let dayOfYear := dayOfEra - (365 * yearOfEra + yearOfEra / 4 - yearOfEra / 100)
  let monthFromMarch := (5 * dayOfYear + 2) / 153
  let month := if monthFromMarch < 10 then monthFromMarch + 3 else monthFromMarch - 9
  { year := yearOfEra + era * 400 + (if month ≤ 2 then 1 else 0)
    month := month
    day := dayOfYear - (153 * monthFromMarch + 2) / 5 + 1 }

/-- A number with zeros before it up to a width. -/
def padded (width n : Nat) : String :=
  let digits := Nat.toDigits 10 n
  String.ofList (List.replicate (width - digits.length) '0' ++ digits)

/-- A year of four digits, or one of more digits after a sign. -/
def yearText (year : Nat) : String :=
  if year ≤ 9999 then padded 4 year else "+" ++ padded 5 year

/-- The last millisecond that is shown as a date, at the end of the year 262142. -/
def lastMilli : Nat := 8210266876799999

/-- An instant from 1970 on.  Milliseconds are shown only if there are any, and beyond the last day
of the calendar an instant is shown as its number. -/
def instantText (millis : Nat) : String :=
  if lastMilli < millis then toString millis
  else
    let seconds := millis / 1000
    let date := dateOfDay (seconds / 86400 + epochDay)
    let time := seconds % 86400
    let fraction := if millis % 1000 = 0 then "" else "." ++ padded 3 (millis % 1000)
    yearText date.year ++ "-" ++ padded 2 date.month ++ "-" ++ padded 2 date.day ++ "T" ++
      padded 2 (time / 3600) ++ ":" ++ padded 2 (time / 60 % 60) ++ ":" ++ padded 2 (time % 60) ++
      fraction ++ "+00:00"

end Custody.Calendar
