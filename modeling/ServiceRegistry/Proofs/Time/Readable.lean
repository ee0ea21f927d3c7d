/-
  Readable timestamps say what they stand for.

  1. **Moments.**  A moment is a date of the calendar with a time of day, and comes so many seconds
     after 1970-01-01 00:00:00 (`Moment.elapsed`): the days to its date, of 86400 seconds each, and
     the seconds of its time.

  2. **Reading.**  `Moment.read?` takes a text apart and `secondsOf?` counts the seconds to what it
     names.  Neither knows how a timestamp is written, or how the date of a second is found.  Each
     field reads back (`field?_twoDigits`, `integer?_yearText`), so the whole does
     (`read?_dateTimeText`).

  3. **Order.**  While years have four digits all fields have a fixed width, and texts are compared
     field by field as the moments are (`dateTimeText_lt_iff`).

  4. **Years.**  In which year a second lies is counted by the lengths of the years (`InYears`), and
     is what its date says (`inYears_iff`).  From there the two ends of the calendar
     (`covered_iff`) and of the years of four digits.

  So a timestamp reads back from its readable form, and the texts of the years 0 … 9999 have one
  length and stand in the order of time (`readable_faithful`).
-/
import ServiceRegistry.Proofs.Text.Numerals
import ServiceRegistry.Proofs.Time.Gregorian

namespace ServiceRegistry.Time

open ServiceRegistry.Text

/-! ## Moments -/

/-- A date and a time of day. -/
structure Moment where
  date : Date
  hour : Nat
  minute : Nat
  second : Nat
  deriving DecidableEq, Repr

namespace Moment

/-- A time of a date of the calendar, whose minutes all have sixty seconds. -/
structure Valid (m : Moment) : Prop where
  date : m.date.Valid
  hour_lt : m.hour < 24
  minute_lt : m.minute < 60
  second_lt : m.second < 60

instance (m : Moment) : Decidable m.Valid :=
  decidable_of_iff (m.date.Valid ∧ m.hour < 24 ∧ m.minute < 60 ∧ m.second < 60)
    ⟨fun ⟨date, hour, minute, second⟩ => ⟨date, hour, minute, second⟩,
      fun ⟨date, hour, minute, second⟩ => ⟨date, hour, minute, second⟩⟩

/-- The seconds from 1970-01-01 00:00:00 to a moment. -/
def elapsed (m : Moment) : Int :=
  86400 * m.date.elapsed + 3600 * m.hour + 60 * m.minute + m.second

/-- The moment of a second of a day. -/
def ofSecond (d : Date) (secondOfDay : Nat) : Moment :=
  ⟨d, secondOfDay / 3600, secondOfDay / 60 % 60, secondOfDay % 60⟩

/-- A second of a day is a time of it. -/
theorem valid_ofSecond {d : Date} (valid : d.Valid) {secondOfDay : Nat} (lt : secondOfDay < 86400) :
    (ofSecond d secondOfDay).Valid := by
  refine ⟨valid, ?_, ?_, ?_⟩ <;> dsimp only [ofSecond] <;> omega

/-- A second of a day comes after as many days as its date, and as many seconds. -/
@[simp] theorem elapsed_ofSecond (d : Date) (secondOfDay : Nat) :
    (ofSecond d secondOfDay).elapsed = 86400 * d.elapsed + secondOfDay := by
  dsimp only [elapsed, ofSecond]
  omega

end Moment

/-! ## Reading -/

/-- The first year of the calendar. -/
def firstYear : Int := -262143

/-- The last year of the calendar. -/
def lastYear : Int := 262142

/-- Takes a number of two digits behind a mark. -/
def field? (mark : Char) : List Char → Option (Nat × List Char)
  | c :: d :: e :: rest => if c = mark then (natural? [d, e]).map (·, rest) else none
  | _ => none

/-- Reads a moment: the last fifteen characters are `-MM-DD hh:mm:ss`, what stands before them is
    the year, with a sign or without. -/
def Moment.read? (text : String) : Option Moment :=
  let (year, rest) := text.toList.splitAt (text.length - 15)
  (integer? firstYear lastYear year).bind fun year =>
    (field? '-' rest).bind fun (month, rest) =>
      (field? '-' rest).bind fun (day, rest) =>
        (field? ' ' rest).bind fun (hour, rest) =>
          (field? ':' rest).bind fun (minute, rest) =>
            (field? ':' rest).bind fun (second, rest) =>
              if rest.isEmpty then
                (some ⟨⟨year, month, day⟩, hour, minute, second⟩).filter fun m => m.Valid
              else none

/-- The timestamp that a text names, in seconds. -/
def secondsOf? (text : String) : Option Int := (Moment.read? text).map Moment.elapsed

/-- A number below 100 is written with two digits. -/
theorem length_twoDigits {n : Nat} (fits : n < 100) : (twoDigits n).length = 2 :=
  length_padded (by decide) fits

/-- A field of two digits reads back, and what follows it is left. -/
theorem field?_twoDigits (mark : Char) {n : Nat} (fits : n < 100) (rest : List Char) :
    field? mark (mark :: (twoDigits n ++ rest)) = some (n, rest) := by
  have two : (twoDigits n).length = 2 := length_twoDigits fits
  obtain ⟨d, e, digits⟩ : ∃ d e, twoDigits n = [d, e] := by
    match twoDigits n, two with
    | [d, e], _ => exact ⟨d, e, rfl⟩
  have number : natural? [d, e] = some n := digits ▸ natural?_padded 2 n
  simp [digits, field?, number]

/-- A year reads back, with the sign that it has before the year 0 and after the year 9999. -/
theorem integer?_yearText {lo hi y : Int} (above : lo ≤ y) (below : y ≤ hi) :
    integer? lo hi (yearText y) = some y := by
  have in_range : Option.filter (fun i => lo ≤ i ∧ i ≤ hi) (some y) = some y := by
    simp [above, below]
  -- a year of four digits has no sign, one before them a minus, one after them a plus
  unfold yearText
  split
  · have value : (y.toNat : Int) = y := by omega
    rw [integer?_of_isDigit fun _ => isDigit_padded, natural?_padded]
    show Option.filter _ (some (y.toNat : Int)) = some y
    rw [value, in_range]
  · split
    · have value : -(y.natAbs : Int) = y := by omega
      simp only [integer?, natural?_padded]
      show Option.filter _ (some (-(y.natAbs : Int))) = some y
      rw [value, in_range]
    · have value : (y.natAbs : Int) = y := by omega
      simp only [integer?, natural?_padded]
      show Option.filter _ (some (y.natAbs : Int)) = some y
      rw [value, in_range]

/-- Month and day fit in two digits. -/
theorem Date.Valid.two_digits {d : Date} (h : d.Valid) : d.month < 100 ∧ d.day < 100 := by
  have month := h.month_le
  have day := h.day_le
  unfold monthLength at day
  refine ⟨by omega, ?_⟩
  split_ifs at day <;> omega

/-- Hour, minute and second fit in two digits. -/
theorem time_two_digits {secondOfDay : Nat} (lt : secondOfDay < 86400) :
    secondOfDay / 3600 < 100 ∧ secondOfDay / 60 % 60 < 100 ∧ secondOfDay % 60 < 100 := by
  omega

/-- Behind the year a text goes on with fifteen characters. -/
theorem length_dateTimeText {d : Date} (valid : d.Valid) {secondOfDay : Nat}
    (lt : secondOfDay < 86400) :
    (dateTimeText d secondOfDay).length = (yearText d.year).length + 15 := by
  obtain ⟨hour, minute, second⟩ := time_two_digits lt
  simp only [dateTimeText, List.length_append, List.length_cons,
    length_twoDigits valid.two_digits.1, length_twoDigits valid.two_digits.2,
    length_twoDigits hour, length_twoDigits minute, length_twoDigits second]

/-- A moment reads back from its text. -/
theorem read?_dateTimeText {d : Date} (valid : d.Valid) (first : firstYear ≤ d.year)
    (last : d.year ≤ lastYear) {secondOfDay : Nat} (lt : secondOfDay < 86400) :
    Moment.read? (String.ofList (dateTimeText d secondOfDay))
      = some (Moment.ofSecond d secondOfDay) := by
  obtain ⟨hour, minute, second⟩ := time_two_digits lt
  have last_field := field?_twoDigits ':' second []
  rw [List.append_nil] at last_field
  unfold Moment.read?
  rw [String.toList_ofList, String.length_ofList, length_dateTimeText valid lt, Nat.add_sub_cancel,
    List.splitAt_eq]
  unfold dateTimeText
  simp only [List.append_assoc, List.cons_append, List.take_left, List.drop_left,
    integer?_yearText first last, field?_twoDigits _ valid.two_digits.1,
    field?_twoDigits _ valid.two_digits.2, field?_twoDigits _ hour, field?_twoDigits _ minute,
    last_field, Option.bind_some, List.isEmpty_nil, if_true]
  exact Option.filter_eq_some_iff.2 ⟨rfl, decide_eq_true (Moment.valid_ofSecond valid lt)⟩

/-! ## Order -/

/-- A text that begins with two digits is ordered by the number first. -/
theorem twoDigits_append_lt_iff {m n : Nat} (hm : m < 100) (hn : n < 100) (s t : List Char) :
    twoDigits m ++ s < twoDigits n ++ t ↔ m < n ∨ m = n ∧ s < t :=
  padded_append_lt_iff (by decide) hm hn s t

/-- Two digits are ordered as the numbers they are. -/
theorem twoDigits_lt_iff {m n : Nat} (hm : m < 100) (hn : n < 100) :
    twoDigits m < twoDigits n ↔ m < n := by
  have whole := twoDigits_append_lt_iff hm hn [] []
  simpa using whole

/-- A text that begins with a year of four digits is ordered by the year first. -/
theorem yearText_append_lt_iff {y z : Int} (hy : 0 ≤ y ∧ y ≤ 9999) (hz : 0 ≤ z ∧ z ≤ 9999)
    (s t : List Char) : yearText y ++ s < yearText z ++ t ↔ y < z ∨ y = z ∧ s < t := by
  have fits : y.toNat < 10 ^ 4 ∧ z.toNat < 10 ^ 4 := by omega
  have less : y.toNat < z.toNat ↔ y < z := by omega
  have same : y.toNat = z.toNat ↔ y = z := by omega
  unfold yearText
  rw [if_pos hy, if_pos hz, padded_append_lt_iff (by decide) fits.1 fits.2, less, same]

/-- The texts of the years 0 … 9999 stand in the order of what they say. -/
theorem dateTimeText_lt_iff {d e : Date} (hd : d.Valid) (he : e.Valid)
    (years : (0 ≤ d.year ∧ d.year ≤ 9999) ∧ 0 ≤ e.year ∧ e.year ≤ 9999) {s t : Nat}
    (hs : s < 86400) (ht : t < 86400) :
    dateTimeText d s < dateTimeText e t ↔ d.Before e ∨ d = e ∧ s < t := by
  obtain ⟨year, month, day⟩ := d
  obtain ⟨year', month', day'⟩ := e
  obtain ⟨hour, minute, second⟩ := time_two_digits hs
  obtain ⟨hour', minute', second'⟩ := time_two_digits ht
  -- Field by field, the marks between them being the same.
  simp only [dateTimeText, List.append_assoc, List.cons_append,
    yearText_append_lt_iff years.1 years.2, List.cons_lt_cons_self,
    twoDigits_append_lt_iff hd.two_digits.1 he.two_digits.1,
    twoDigits_append_lt_iff hd.two_digits.2 he.two_digits.2,
    twoDigits_append_lt_iff hour hour', twoDigits_append_lt_iff minute minute',
    twoDigits_lt_iff second second']
  simp only [Date.Before, Date.mk.injEq]
  omega

/-! ## Years -/

/-- The first second of a year. -/
def beginning (y : Int) : Int := 86400 * daysToYear y

/-- A second of the years from the first to the last. -/
def InYears (first last secs : Int) : Prop :=
  beginning first ≤ secs ∧ secs < beginning (last + 1)

/-- The day of a second. -/
def dayOf (secs : Int) : Int := secs.fdiv 86400

/-- Where a second stands in its day. -/
def secondOfDay (secs : Int) : Nat := (secs.fmod 86400).toNat

/-- A second is a second of its day. -/
theorem day_and_second (secs : Int) :
    86400 * dayOf secs + secondOfDay secs = secs ∧ secondOfDay secs < 86400 := by
  obtain ⟨parts, lt⟩ := floor_parts secs (by decide : (0 : Int) < 86400)
  exact ⟨parts, Int.ofNat_lt.1 lt⟩

/-- The year of a second is the one that its date names. -/
theorem inYears_iff (first last secs : Int) :
    InYears first last secs
      ↔ first ≤ (civil (dayOf secs)).year ∧ (civil (dayOf secs)).year ≤ last := by
  have valid := valid_civil (dayOf secs)
  have parts := day_and_second secs
  have above := valid.year_lt_iff first
  have below := valid.year_lt_iff (last + 1)
  rw [elapsed_civil] at above below
  unfold InYears beginning
  omega

/-- The first second of a year, in closed form. -/
theorem beginning_eq (y : Int) :
    beginning y = 86400 * (365 * (y - 1970) + leapYears (y - 1) - leapYears 1969) := by
  rw [beginning, daysToYear_eq]

/-- The years of four digits, in seconds. -/
theorem inYears_four_digits (secs : Int) :
    InYears 0 9999 secs ↔ -62167219200 ≤ secs ∧ secs ≤ 253402300799 := by
  rw [InYears, beginning_eq, beginning_eq]
  unfold leapYears
  omega

/-- A second that the calendar covers. -/
def Covered (secs : Int) : Prop := -8334601228800 ≤ secs ∧ secs ≤ 8210266876799

instance (secs : Int) : Decidable (Covered secs) := inferInstanceAs (Decidable (_ ∧ _))

/-- The calendar covers whole years. -/
theorem covered_iff (secs : Int) : Covered secs ↔ InYears firstYear lastYear secs := by
  rw [InYears, beginning_eq, beginning_eq]
  unfold Covered leapYears firstYear lastYear
  omega

/-- The years of four digits lie in the calendar. -/
theorem covered_of_four_digits {secs : Int} (h : InYears 0 9999 secs) : Covered secs := by
  rw [inYears_four_digits] at h
  unfold Covered
  omega

/-! ## Timestamps -/

/-- A second of the calendar is written as its date and its time. -/
theorem readable_of_covered {secs : Int} (h : Covered secs) :
    readable secs = String.ofList (dateTimeText (civil (dayOf secs)) (secondOfDay secs)) :=
  if_pos h

/-- A second outside the calendar is written as nothing. -/
theorem readable_of_not_covered {secs : Int} (h : ¬ Covered secs) : readable secs = "" := if_neg h

/-- A second of the calendar reads back from its text. -/
theorem secondsOf?_readable {secs : Int} (h : Covered secs) :
    secondsOf? (readable secs) = some secs := by
  obtain ⟨first, last⟩ := (inYears_iff _ _ _).1 ((covered_iff secs).1 h)
  obtain ⟨parts, lt⟩ := day_and_second secs
  unfold secondsOf?
  rw [readable_of_covered h, read?_dateTimeText (valid_civil _) first last lt, Option.map_some,
    Moment.elapsed_ofSecond, elapsed_civil, parts]

/-- Only the years 0 … 9999 are written with four characters. -/
theorem length_yearText_eq_four_iff (y : Int) : (yearText y).length = 4 ↔ 0 ≤ y ∧ y ≤ 9999 := by
  unfold yearText
  split <;> rename_i four
  · have fits : y.toNat < 10 ^ 4 := by omega
    exact iff_of_true (length_padded (by decide) fits) four
  · have width := le_length_padded 4 (digits y.natAbs)
    refine iff_of_false ?_ four
    rw [List.length_cons]
    omega

/-- A text has 19 characters exactly when its year has four digits. -/
theorem length_readable_eq_iff (secs : Int) :
    (readable secs).length = 19 ↔ InYears 0 9999 secs := by
  by_cases h : Covered secs
  · rw [readable_of_covered h, String.length_ofList,
      length_dateTimeText (valid_civil _) (day_and_second secs).2, inYears_iff,
      ← length_yearText_eq_four_iff]
    omega
  · rw [readable_of_not_covered h]
    exact iff_of_false (by decide) fun four => h (covered_of_four_digits four)

/-- The texts of the years 0 … 9999 stand in the order of time. -/
theorem readable_lt_iff {a b : Int} (ha : InYears 0 9999 a) (hb : InYears 0 9999 b) :
    readable a < readable b ↔ a < b := by
  obtain ⟨parts_a, lt_a⟩ := day_and_second a
  obtain ⟨parts_b, lt_b⟩ := day_and_second b
  have years := And.intro ((inYears_iff _ _ _).1 ha) ((inYears_iff _ _ _).1 hb)
  rw [readable_of_covered (covered_of_four_digits ha),
    readable_of_covered (covered_of_four_digits hb)]
  show (String.ofList _).toList < (String.ofList _).toList ↔ a < b
  rw [String.toList_ofList, String.toList_ofList,
    dateTimeText_lt_iff (valid_civil _) (valid_civil _) years lt_a lt_b, civil_before_iff,
    civil_inj]
  omega

/-- Readable timestamps are faithful.  Two seconds of the calendar have two texts, and each text
    reads back as its second.  The texts of the years 0 … 9999, and no others, have 19 characters,
    and they stand in the order of time.  Outside the calendar, and only there, a text is empty. -/
theorem readable_faithful (a b : Int) :
    (Covered a → Covered b → readable a = readable b → a = b)
      ∧ (Covered a → secondsOf? (readable a) = some a)
      ∧ ((readable a).length = 19 ↔ InYears 0 9999 a)
      ∧ (InYears 0 9999 a → InYears 0 9999 b → (a < b ↔ readable a < readable b))
      ∧ (readable a = "" ↔ ¬ Covered a) := by
  refine ⟨fun ha hb same => ?_, secondsOf?_readable, length_readable_eq_iff a,
    fun ha hb => (readable_lt_iff ha hb).symm, fun empty covered => ?_, readable_of_not_covered⟩
  · have reads := secondsOf?_readable ha
    rw [same, secondsOf?_readable hb] at reads
    exact (Option.some.inj reads).symm
  · have reads := secondsOf?_readable covered
    have unreadable : secondsOf? "" = none := rfl
    rw [empty, unreadable] at reads
    exact absurd reads nofun

/-- The last second of a leap day and the first of March, in a century that has a leap day. -/
theorem readable_faithful_after_leap_day :
    (Covered 951868799 ∧ Covered 951868800 ∧ InYears 0 9999 951868799 ∧ InYears 0 9999 951868800)
      ∧ readable 951868799 = "2000-02-29 23:59:59"
      ∧ readable 951868799 ≠ readable 951868800
      ∧ secondsOf? (readable 951868799) = some 951868799
      ∧ (readable 951868799).length = 19
      ∧ readable 951868799 < readable 951868800
      ∧ readable 951868799 ≠ "" := by
  have leap_day : Covered 951868799 ∧ InYears 0 9999 951868799 :=
    ⟨by decide, (inYears_four_digits _).2 (by decide)⟩
  have march : Covered 951868800 ∧ InYears 0 9999 951868800 :=
    ⟨by decide, (inYears_four_digits _).2 (by decide)⟩
  obtain ⟨injective, reads, length, order, empty⟩ := readable_faithful 951868799 951868800
  refine ⟨⟨leap_day.1, march.1, leap_day.2, march.2⟩, by decide, fun same => ?_,
    reads leap_day.1, length.2 leap_day.2, (order leap_day.2 march.2).1 (by decide),
    fun none => empty.1 none leap_day.1⟩
  exact absurd (injective leap_day.1 march.1 same) (by decide)

-- Past the year 9999 a sign stands first, and the order of texts is another.
example : readable 253402300800 < readable 253402300799 := by decide

end ServiceRegistry.Time
