/-
  Readable timestamps.

  Seconds since 1970 become `YYYY-MM-DD hh:mm:ss` in UTC on the proleptic Gregorian calendar.  A
  year outside 0 … 9999 carries its sign.  The calendar covers the years -262143 … 262142; outside
  it a timestamp has no readable form, and its text is empty.

    * `civil`       the date of a day number, counting days from 1970-01-01;
    * `dayNumber`   the day number of a date, its inverse;
    * `readable`    the text of a timestamp.
-/
import ServiceRegistry.Text.Decimal

namespace ServiceRegistry.Time

open ServiceRegistry.Text

/-- A calendar date. -/
structure Date where
  year : Int
  month : Nat
  day : Nat
  deriving DecidableEq, Repr

/-! ## Days and dates

  The count runs in cycles of 400 years = 146097 days, and inside a cycle in years that begin on the
  first of March, so that the leap day is the last day of its year. -/

/-- The date of a day number. -/
def civil (days : Int) : Date :=
  let shifted := days + 719468
  let cycle := Int.fdiv shifted 146097
  let dayOfCycle := (Int.fmod shifted 146097).toNat
  let yearOfCycle :=
    (dayOfCycle - dayOfCycle / 1460 + dayOfCycle / 36524 - dayOfCycle / 146096) / 365
  let dayOfYear := dayOfCycle - (365 * yearOfCycle + yearOfCycle / 4 - yearOfCycle / 100)
  let monthFromMarch := (5 * dayOfYear + 2) / 153
  let day := dayOfYear - (153 * monthFromMarch + 2) / 5 + 1
  let month := if monthFromMarch < 10 then monthFromMarch + 3 else monthFromMarch - 9
  let year := (yearOfCycle : Int) + 400 * cycle
  ⟨if month ≤ 2 then year + 1 else year, month, day⟩

/-- The day number of a date. -/
def dayNumber (d : Date) : Int :=
  let year := if d.month ≤ 2 then d.year - 1 else d.year
  let cycle := Int.fdiv year 400
  let yearOfCycle := (Int.fmod year 400).toNat
  let monthFromMarch := if d.month ≤ 2 then d.month + 9 else d.month - 3
  let dayOfYear := (153 * monthFromMarch + 2) / 5 + d.day - 1
  let dayOfCycle := 365 * yearOfCycle + yearOfCycle / 4 - yearOfCycle / 100 + dayOfYear
  146097 * cycle + dayOfCycle - 719468

/-! ## The text -/

/-- Four digits for a year of 0 … 9999; a sign and at least four digits for any other. -/
def yearText (y : Int) : List Char :=
  if 0 ≤ y ∧ y ≤ 9999 then padded 4 (digits y.toNat)
  else (if y < 0 then '-' else '+') :: padded 4 (digits y.natAbs)

/-- Two digits. -/
def twoDigits (n : Nat) : List Char := padded 2 (digits n)

/-- The text of a date and a second of the day. -/
def dateTimeText (d : Date) (secondOfDay : Nat) : List Char :=
  yearText d.year ++ '-' :: twoDigits d.month ++ '-' :: twoDigits d.day ++ ' ' ::
    twoDigits (secondOfDay / 3600) ++ ':' :: twoDigits (secondOfDay / 60 % 60) ++ ':' ::
    twoDigits (secondOfDay % 60)

/-- The first second the calendar covers. -/
def firstSecond : Int := -8334601228800

/-- The last second the calendar covers. -/
def lastSecond : Int := 8210266876799

/-- The readable form of a timestamp, empty outside the calendar. -/
def readable (secs : Int) : String :=
  if firstSecond ≤ secs ∧ secs ≤ lastSecond then
    String.ofList (dateTimeText (civil (Int.fdiv secs 86400)) (Int.fmod secs 86400).toNat)
  else ""

end ServiceRegistry.Time
