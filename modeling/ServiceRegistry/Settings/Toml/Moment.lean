/-
  Dates and times of TOML.

  A moment is a date, a time of day, or both with perhaps an offset.  It is written in one form: a
  capital `T` between date and time, and of a fraction at most nine digits, without zeros at the
  end.

    * `Moment.parse?`   reads one;
    * `Moment.text`     writes one.
-/
import ServiceRegistry.Text.Decimal

namespace ServiceRegistry.Toml

open ServiceRegistry.Text

/-- A time of day; seconds may be missing, and a fraction of one as well. -/
structure TimeOfDay where
  hour : Nat
  minute : Nat
  second : Option Nat := none
  fraction : Option (List Char) := none
  deriving DecidableEq, Repr

/-- The offset of a time. -/
inductive Offset
  | zulu
  /-- In minutes. -/
  | minutes (n : Int)
  deriving DecidableEq, Repr

/-- A date, a time of day, or both. -/
structure Moment where
  /-- Year, month and day. -/
  date : Option (Nat × Nat × Nat) := none
  time : Option TimeOfDay := none
  offset : Option Offset := none
  deriving DecidableEq, Repr

namespace Moment

/-! ## Reading -/

/-- Takes a number of so many digits. -/
def number? (width : Nat) (cs : List Char) : Option (Nat × List Char) :=
  if cs.length < width then none else (natural? (cs.take width)).map (·, cs.drop width)

/-- Takes a number of two digits behind a character, of at most `max`. -/
def behind? (mark : Char) (max : Nat) : List Char → Option (Nat × List Char)
  | c :: cs => if c = mark then (number? 2 cs).filter (·.1 ≤ max) else none
  | [] => none

/-- How many days a month has. -/
def daysIn (year month : Nat) : Nat :=
  if month = 2 then
    if year % 4 = 0 && (year % 100 ≠ 0 || year % 400 = 0) then 29 else 28
  else if [4, 6, 9, 11].contains month then 30
  else 31

/-- Takes a date. -/
def date? (cs : List Char) : Option ((Nat × Nat × Nat) × List Char) :=
  (number? 4 cs).bind fun (year, r) => (behind? '-' 12 r).bind fun (month, r) =>
    (behind? '-' (daysIn year month) r).bind fun (day, r) =>
      if month = 0 || day = 0 then none else some ((year, month, day), r)

/-- A fraction with at most nine digits; one that is zero keeps a digit. -/
def shortened (ds : List Char) : List Char :=
  let ds := ((ds.take 9).reverse.dropWhile (· = '0')).reverse
  if ds.isEmpty then ['0'] else ds

/-- Takes a time of day. -/
def time? (cs : List Char) : Option (TimeOfDay × List Char) :=
  ((number? 2 cs).filter (·.1 ≤ 23)).bind fun (hour, r) =>
    (behind? ':' 59 r).bind fun (minute, r) =>
      if r.head? ≠ some ':' then some ({ hour, minute }, r)
      else (behind? ':' 60 r).bind fun (second, r) =>
        match r with
        | '.' :: r =>
          let ds := r.takeWhile Char.isDigit
          if ds.isEmpty then none
          else some ({ hour, minute, second := some second, fraction := some (shortened ds) },
            r.drop ds.length)
        | r => some ({ hour, minute, second := some second }, r)

/-- Reads an offset, the last part of a moment. -/
def offset? (cs : List Char) : Option (Option Offset) :=
  match cs with
  | [] => some none
  | ['Z'] => some (some .zulu)
  | ['z'] => some (some .zulu)
  | sign :: r =>
    if sign ≠ '+' && sign ≠ '-' then none
    else
      ((number? 2 r).filter (·.1 ≤ 23)).bind fun (hours, r) =>
        (behind? ':' 59 r).bind fun (minutes, r) =>
          let n : Int := 60 * hours + minutes
          if r.isEmpty then some (some (.minutes (if sign = '-' then -n else n))) else none

/-- Whether a character stands between a date and a time. -/
def isBetween (c : Char) : Bool := c = 'T' || c = 't' || c = ' '

/-- Reads a moment. -/
def parse? (cs : List Char) : Option Moment :=
  match date? cs with
  | none => (time? cs).bind fun (time, r) => if r.isEmpty then some { time := some time } else none
  | some (date, []) => some { date := some date }
  | some (date, c :: r) =>
    if !isBetween c then none
    else (time? r).bind fun (time, r) => (offset? r).map fun offset =>
      { date := some date, time := some time, offset }

/-! ## Writing -/

/-- Two digits. -/
def two (n : Nat) : List Char := padded 2 (digits n)

/-- Writes a time of day. -/
def timeText (t : TimeOfDay) : List Char :=
  two t.hour ++ ':' :: two t.minute ++ (t.second.map fun s => ':' :: two s).getD []
    ++ (t.fraction.map ('.' :: ·)).getD []

/-- Writes an offset. -/
def offsetText : Offset → List Char
  | .zulu => ['Z']
  | .minutes n =>
    (if n < 0 then '-' else '+') :: two (n.natAbs / 60) ++ ':' :: two (n.natAbs % 60)

/-- Writes a moment. -/
def text (m : Moment) : List Char :=
  let date := (m.date.map fun (y, month, d) =>
    padded 4 (digits y) ++ '-' :: two month ++ '-' :: two d).getD []
  let between := if m.date.isSome && m.time.isSome then ['T'] else []
  date ++ between ++ (m.time.map timeText).getD [] ++ (m.offset.map offsetText).getD []

end Moment

end ServiceRegistry.Toml
