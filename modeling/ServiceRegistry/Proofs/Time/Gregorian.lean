/-
  The Gregorian calendar, and the days it counts.

  1. **The rules.**  A year is a leap year by its number (`Leap`), months have their lengths
     (`monthLength`), and a date names a day of a month (`Date.Valid`).  The days from 1970-01-01 to
     a date are the lengths of the years, of the months and the days between (`Date.elapsed`):
     nothing else is known here of a calendar.

  2. **Order.**  A date lies in its year (`Date.Valid.within_year`), so an earlier date has fewer
     days before it, and the days stand in the order of year, month and day
     (`Date.Valid.elapsed_lt_iff`).

  3. **Closed forms.**  The day number and the date of a day are computed in years that begin in
     March, and in cycles of 400 of these.  `daysToYear_cycles` says what a cycle counts and
     `daysToMonth_before_march`, `daysToMonth_from_march` what the months do.  The load-bearing step
     is `year_of_day`: a day of a cycle, less the leap days up to it, tells its year, since this
     number never falls (`leapless_mono`) and is right at both ends of each year (`leapless_year`).

  4. **Bridge.**  So `dayNumber` counts the days (`dayNumber_eq_elapsed`), `civil` finds a date of
     the calendar (`valid_civil`), and this comes that many days after 1970-01-01 (`elapsed_civil`):
     the two undo each other (`dayNumber_civil`, `civil_dayNumber`).
-/
import ServiceRegistry.Time.Calendar
import Mathlib.Data.Int.Init
import Mathlib.Tactic.IntervalCases

namespace ServiceRegistry.Time

/-! ## The rules -/

/-- Every fourth year is a leap year, of the full centuries every fourth. -/
def Leap (y : Int) : Prop := y % 4 = 0 ∧ (y % 100 ≠ 0 ∨ y % 400 = 0)

instance (y : Int) : Decidable (Leap y) := inferInstanceAs (Decidable (_ ∧ _))

/-- The days of a year. -/
def yearLength (y : Int) : Int := if Leap y then 366 else 365

/-- The days of a month. -/
def monthLength (y : Int) (m : Nat) : Nat :=
  if m = 2 then if Leap y then 29 else 28
  else if m = 4 ∨ m = 6 ∨ m = 9 ∨ m = 11 then 30
  else 31

/-- A date of the calendar. -/
structure Date.Valid (d : Date) : Prop where
  month_pos : 1 ≤ d.month
  month_le : d.month ≤ 12
  day_pos : 1 ≤ d.day
  day_le : d.day ≤ monthLength d.year d.month

instance (d : Date) : Decidable d.Valid :=
  decidable_of_iff (1 ≤ d.month ∧ d.month ≤ 12 ∧ 1 ≤ d.day ∧ d.day ≤ monthLength d.year d.month)
    ⟨fun ⟨least, most, first, last⟩ => ⟨least, most, first, last⟩,
      fun ⟨least, most, first, last⟩ => ⟨least, most, first, last⟩⟩

/-! ## Counting -/

/-- The days from the beginning of 1970 to that of a year: the lengths of the years between, which
    count down for a year before 1970. -/
def daysToYear (y : Int) : Int :=
  ((List.range (y - 1970).toNat).map fun k : Nat => yearLength (1970 + k)).sum
    - ((List.range (1970 - y).toNat).map fun k : Nat => yearLength (y + k)).sum

/-- The days from the beginning of a year to that of a month: the lengths of the months between. -/
def daysToMonth (y : Int) (m : Nat) : Nat :=
  ((List.range (m - 1)).map fun k => monthLength y (k + 1)).sum

/-- The days from 1970-01-01 to a date. -/
def Date.elapsed (d : Date) : Int := daysToYear d.year + daysToMonth d.year d.month + d.day - 1

/-- A year later, a year's length more has passed: before 1970 there is one year less to count
    down. -/
theorem daysToYear_succ (y : Int) : daysToYear (y + 1) = daysToYear y + yearLength y := by
  unfold daysToYear
  -- one of the two sums is empty, and the other gains or loses its end at the year in hand
  by_cases before : y < 1970
  · have one_less : (1970 - y).toNat = (1970 - (y + 1)).toNat + 1 := by omega
    have next : (y + 1 - 1970).toNat = 0 ∧ (y - 1970).toNat = 0 := by omega
    rw [one_less, next.1, next.2, List.range_succ_eq_map]
    simp [Function.comp_def, Int.add_assoc, Int.add_comm 1]
  · have one_more : (y + 1 - 1970).toNat = (y - 1970).toNat + 1 := by omega
    have none : (1970 - (y + 1)).toNat = 0 ∧ (1970 - y).toNat = 0 := by omega
    have last : 1970 + ((y - 1970).toNat : Int) = y := by omega
    rw [one_more, none.1, none.2, List.range_succ, List.map_append, List.sum_append,
      List.map_singleton, List.sum_singleton, last]
    simp only [List.range_zero, List.map_nil, List.sum_nil]
    omega

/-- The leap years among the years 1 … `y`. -/
def leapYears (y : Int) : Int := y / 4 - y / 100 + y / 400

/-- The length of a year is 365 days and what it adds to the leap years. -/
theorem yearLength_eq (y : Int) : yearLength y = 365 + leapYears y - leapYears (y - 1) := by
  unfold yearLength leapYears
  by_cases leap : Leap y
  · rw [if_pos leap]
    unfold Leap at leap
    omega
  · rw [if_neg leap]
    unfold Leap at leap
    omega

/-- So the days to a year are counted by the leap years before it, by induction up and down from
    1970. -/
theorem daysToYear_eq (y : Int) :
    daysToYear y = 365 * (y - 1970) + leapYears (y - 1) - leapYears 1969 := by
  induction y using Int.inductionOn' with
  | b => exact 1970
  | zero => rfl
  | succ y _ ih =>
    rw [daysToYear_succ, ih, yearLength_eq, Int.add_sub_cancel]
    omega
  | pred y _ ih =>
    have step := daysToYear_succ (y - 1)
    rw [Int.sub_add_cancel, ih, yearLength_eq] at step
    omega

/-- A later year begins later. -/
theorem daysToYear_mono {y z : Int} (h : y ≤ z) : daysToYear y ≤ daysToYear z := by
  rw [daysToYear_eq, daysToYear_eq]
  unfold leapYears
  omega

/-- A month later, a month's length more has passed. -/
theorem daysToMonth_succ (y : Int) {m : Nat} (pos : 1 ≤ m) :
    daysToMonth y (m + 1) = daysToMonth y m + monthLength y m := by
  obtain ⟨k, rfl⟩ : ∃ k, m = k + 1 := ⟨m - 1, by omega⟩
  simp [daysToMonth, List.range_succ]

/-- A later month of a year begins later. -/
theorem daysToMonth_mono (y : Int) {m n : Nat} (pos : 1 ≤ m) (h : m ≤ n) :
    daysToMonth y m ≤ daysToMonth y n := by
  induction n, h using Nat.le_induction with
  | base => exact Nat.le_refl _
  | succ n le ih =>
    rw [daysToMonth_succ y (Nat.le_trans pos le)]
    omega

/-- Twelve months make a year. -/
theorem daysToMonth_thirteen (y : Int) : (daysToMonth y 13 : Int) = yearLength y := by
  unfold yearLength
  by_cases leap : Leap y <;> simp [daysToMonth, List.range_succ, monthLength, leap]

/-! ## Order -/

/-- The order of dates: by year, by month, by day. -/
def Date.Before (d e : Date) : Prop :=
  d.year < e.year ∨ d.year = e.year ∧ (d.month < e.month ∨ d.month = e.month ∧ d.day < e.day)

/-- Any two dates are the same, or one is before the other. -/
theorem Date.before_or_eq_or_before (d e : Date) : d.Before e ∨ d = e ∨ e.Before d := by
  obtain ⟨year, month, day⟩ := d
  obtain ⟨year', month', day'⟩ := e
  simp only [Date.Before, Date.mk.injEq]
  omega

namespace Date.Valid

variable {d e : Date}

/-- A date lies in its month. -/
theorem day_lt_month (h : d.Valid) :
    daysToMonth d.year d.month + d.day ≤ daysToMonth d.year (d.month + 1) := by
  rw [daysToMonth_succ d.year h.month_pos]
  exact Nat.add_le_add_left h.day_le _

/-- A date lies in its year. -/
theorem within_year (h : d.Valid) :
    daysToYear d.year ≤ d.elapsed ∧ d.elapsed < daysToYear (d.year + 1) := by
  have first := h.day_pos
  have in_month := h.day_lt_month
  have in_year : daysToMonth d.year (d.month + 1) ≤ daysToMonth d.year 13 :=
    daysToMonth_mono d.year (by omega) (Nat.succ_le_succ h.month_le)
  have whole := daysToMonth_thirteen d.year
  rw [daysToYear_succ]
  unfold Date.elapsed
  omega

/-- A date is of an earlier year exactly when it comes before that year begins. -/
theorem year_lt_iff (h : d.Valid) (y : Int) : d.year < y ↔ d.elapsed < daysToYear y := by
  obtain ⟨begun, not_over⟩ := h.within_year
  constructor
  · intro earlier
    have := daysToYear_mono (Int.add_one_le_of_lt earlier)
    omega
  · intro before
    by_contra later
    have := daysToYear_mono (Int.not_lt.1 later)
    omega

/-- An earlier date has fewer days before it, at whichever of year, month and day the two first
    differ. -/
theorem elapsed_lt (hd : d.Valid) (he : e.Valid) (before : d.Before e) : d.elapsed < e.elapsed := by
  rcases before with year | ⟨year, month | ⟨month, day⟩⟩
  · have years : daysToYear (d.year + 1) ≤ daysToYear e.year := daysToYear_mono year
    have := hd.within_year
    have := he.within_year
    omega
  · have months : daysToMonth d.year (d.month + 1) ≤ daysToMonth d.year e.month :=
      daysToMonth_mono d.year (by omega) month
    have := hd.day_lt_month
    have := he.day_pos
    unfold Date.elapsed
    rw [← year]
    omega
  · unfold Date.elapsed
    rw [← year, ← month]
    omega

/-- The days of the calendar are counted in its order. -/
theorem elapsed_lt_iff (hd : d.Valid) (he : e.Valid) : d.elapsed < e.elapsed ↔ d.Before e := by
  refine ⟨fun less => ?_, hd.elapsed_lt he⟩
  rcases d.before_or_eq_or_before e with before | rfl | after
  · exact before
  · exact absurd less (Int.lt_irrefl _)
  · exact absurd less (Int.lt_asymm (he.elapsed_lt hd after))

/-- Two dates with as many days before them are the same. -/
theorem elapsed_inj (hd : d.Valid) (he : e.Valid) : d.elapsed = e.elapsed ↔ d = e := by
  refine ⟨fun same => ?_, fun same => by rw [same]⟩
  rcases d.before_or_eq_or_before e with before | eq | after
  · exact absurd same (Int.ne_of_lt (hd.elapsed_lt he before))
  · exact eq
  · exact absurd same.symm (Int.ne_of_lt (he.elapsed_lt hd after))

end Date.Valid

/-! ## The day number -/

/-- Division that rounds down, with a remainder from nought. -/
theorem floor_parts (n : Int) {k : Int} (pos : 0 < k) :
    k * n.fdiv k + (n.fmod k).toNat = n ∧ ((n.fmod k).toNat : Int) < k := by
  have parts := Int.mul_fdiv_add_fmod n k
  have nonneg := Int.fmod_nonneg_of_pos n pos
  have lt := Int.fmod_lt_of_pos n pos
  rw [Int.toNat_of_nonneg nonneg]
  exact ⟨parts, lt⟩

/-- The days from the first of March to the beginning of a month, which is counted from March. -/
def daysFromMarch (k : Nat) : Nat := (153 * k + 2) / 5

/-- January and February end a year that began in March. -/
theorem daysToMonth_before_march (y : Int) {m : Nat} (pos : 1 ≤ m) (le : m ≤ 2) :
    daysToMonth y m + 306 = daysFromMarch (m + 9) := by
  interval_cases m <;> simp [daysToMonth, monthLength, daysFromMarch]

/-- From March on only the leap day moves the beginning of a month. -/
theorem daysToMonth_from_march (y : Int) {m : Nat} (ge : 3 ≤ m) (le : m ≤ 12) :
    (daysToMonth y m : Int) + 306 = yearLength y + daysFromMarch (m - 3) := by
  unfold yearLength
  by_cases leap : Leap y <;> interval_cases m <;>
    simp [daysToMonth, List.range_succ, monthLength, daysFromMarch, leap]

/-- The days of the first years of a cycle of 400. -/
def daysOfCycle (y : Nat) : Nat := 365 * y + y / 4 - y / 100 + y / 400

/-- Inside a cycle every full century goes without a leap day. -/
theorem daysOfCycle_of_lt {y : Nat} (lt : y < 400) :
    365 * y + y / 4 - y / 100 = daysOfCycle y := by
  unfold daysOfCycle
  omega

/-- No year of a cycle begins after the cycle has ended. -/
theorem daysOfCycle_le {y : Nat} (h : y ≤ 400) : daysOfCycle y ≤ 146097 := by
  unfold daysOfCycle
  omega

/-- A year of a cycle begins as many days after 1970-01-01 as the cycles and the years in it have.
    The cycles are counted from the year 0, whose March comes 719468 days before 1970. -/
theorem daysToYear_cycles (cycle : Int) (y : Nat) :
    daysToYear (y + 400 * cycle + 1) = 146097 * cycle + daysOfCycle y - 719162 := by
  rw [daysToYear_eq]
  unfold leapYears daysOfCycle
  omega

/-- The closed form finds the month in a year that began in March, 306 days before the next. -/
theorem dayNumber_eq {d : Date} {y : Int} {k : Nat} (day : 1 ≤ d.day)
    (year : y = if d.month ≤ 2 then d.year - 1 else d.year)
    (month : k = if d.month ≤ 2 then d.month + 9 else d.month - 3) :
    dayNumber d = daysToYear (y + 1) - 306 + daysFromMarch k + d.day - 1 := by
  obtain ⟨parts, lt⟩ := floor_parts y (by decide : (0 : Int) < 400)
  have cycles := daysToYear_cycles (y.fdiv 400) (y.fmod 400).toNat
  rw [Int.add_comm _ (400 * y.fdiv 400), parts] at cycles
  have years := daysOfCycle_of_lt (Int.ofNat_lt.1 lt)
  simp only [dayNumber, ← year, ← month, cycles, years]
  unfold daysFromMarch
  omega

/-- The closed form counts the days. -/
theorem dayNumber_eq_elapsed {d : Date} (h : d.Valid) : dayNumber d = d.elapsed := by
  rw [dayNumber_eq h.day_pos rfl rfl]
  unfold Date.elapsed
  by_cases before_march : d.month ≤ 2
  · have months := daysToMonth_before_march d.year h.month_pos before_march
    rw [if_pos before_march, if_pos before_march, Int.sub_add_cancel]
    omega
  · have months := daysToMonth_from_march d.year (Nat.lt_of_not_le before_march) h.month_le
    rw [if_neg before_march, if_neg before_march, daysToYear_succ]
    omega

/-! ## The date of a day of a year -/

/-- The date of a day, which is counted from the first of March of a year. -/
def dateFromMarch (y : Int) (day : Nat) : Date :=
  let monthFromMarch := (5 * day + 2) / 153
  let month := if monthFromMarch < 10 then monthFromMarch + 3 else monthFromMarch - 9
  ⟨if month ≤ 2 then y + 1 else y, month, day - daysFromMarch monthFromMarch + 1⟩

/-- The month of a day. -/
theorem month_of_day {day : Nat} (in_year : day ≤ 365) :
    (5 * day + 2) / 153 ≤ 11 ∧ daysFromMarch ((5 * day + 2) / 153) ≤ day
      ∧ day < daysFromMarch ((5 * day + 2) / 153 + 1) := by
  unfold daysFromMarch
  omega

/-- Counted from March, all months but the last have the length that the calendar gives them. -/
theorem daysFromMarch_succ (y : Int) {k : Nat} (le : k ≤ 10) :
    daysFromMarch (k + 1) = daysFromMarch k + monthLength y (if k < 10 then k + 3 else k - 9) := by
  interval_cases k <;> rfl

/-- A day of a year is at most its 366th. -/
theorem le_of_lt_yearLength {y : Int} {day : Nat} (in_year : day < yearLength y) : day ≤ 365 := by
  unfold yearLength at in_year
  split at in_year <;> omega

/-- The last day of February exists in the years that have a day for it. -/
theorem february_of_lt_yearLength {y : Int} {day : Nat} (in_year : day < yearLength y) :
    day - daysFromMarch 11 + 1 ≤ monthLength y 2 := by
  have begins : daysFromMarch 11 = 337 := rfl
  show day - daysFromMarch 11 + 1 ≤ if Leap y then 29 else 28
  unfold yearLength at in_year
  split at in_year <;> rename_i leap
  · rw [if_pos leap]
    omega
  · rw [if_neg leap]
    omega

/-- The date of a day of a year exists. -/
theorem valid_dateFromMarch {y : Int} {day : Nat} (in_year : day < yearLength (y + 1)) :
    (dateFromMarch y day).Valid := by
  obtain ⟨month_le, begun, not_over⟩ := month_of_day (le_of_lt_yearLength in_year)
  unfold dateFromMarch
  generalize (5 * day + 2) / 153 = month at *
  refine ⟨?_, ?_, Nat.le_add_left 1 _, ?_⟩
  · dsimp only
    split <;> omega
  · dsimp only
    split <;> omega
  · by_cases february : month = 11
    · subst february
      exact february_of_lt_yearLength in_year
    · -- every month but the last ends where the next begins
      have not_february : month ≤ 10 := by omega
      refine Nat.le_of_add_le_add_left (a := daysFromMarch month) ?_
      rw [← daysFromMarch_succ _ not_february]
      show daysFromMarch month + (day - daysFromMarch month + 1) ≤ _
      omega

/-- The day number of that date is the day that it was made of. -/
theorem dayNumber_dateFromMarch {y : Int} {day : Nat} (in_year : day ≤ 365) :
    dayNumber (dateFromMarch y day) = daysToYear (y + 1) - 306 + day := by
  obtain ⟨month_le, begun, not_over⟩ := month_of_day in_year
  unfold dateFromMarch
  generalize (5 * day + 2) / 153 = month at *
  -- The closed form comes back to the year and the month that the date was made of.
  rw [dayNumber_eq (y := y) (k := month) (Nat.le_add_left 1 _)]
  · dsimp only
    omega
  · dsimp only
    split <;> split <;> omega
  · dsimp only
    split <;> split <;> omega

/-! ## The year of a day of a cycle -/

/-- The number of a day of a cycle when the leap days up to it are taken out.  Each quotient stands
    for one of the three rules, and counts a day at the end of its span, where the leap day lies in
    years that begin in March. -/
def leapless (day : Nat) : Nat := day - day / 1460 + day / 36524 - day / 146096

/-- On the way through a cycle it never falls: at the last day, where the third correction sets in,
    so does the second. -/
theorem leapless_mono {a b : Nat} (h : a ≤ b) (in_cycle : b < 146097) :
    leapless a ≤ leapless b := by
  unfold leapless
  omega

/-- It begins each year with a multiple of 365 and does not reach the next. -/
theorem leapless_year : ∀ y < 400, leapless (daysOfCycle y) = 365 * y
    ∧ leapless (daysOfCycle (y + 1) - 1) < 365 * (y + 1) := by
  decide +kernel

/-- So it tells the year of a day. -/
theorem year_of_day {day : Nat} (in_cycle : day < 146097) :
    leapless day / 365 < 400 ∧ daysOfCycle (leapless day / 365) ≤ day
      ∧ day < daysOfCycle (leapless day / 365 + 1) := by
  have most : leapless day ≤ leapless 146096 :=
    leapless_mono (Nat.le_of_lt_succ in_cycle) (by decide)
  have last : leapless 146096 = 145999 := rfl
  generalize told : leapless day / 365 = year
  have in_range : year < 400 := by omega
  refine ⟨in_range, ?_, ?_⟩
  · -- A day before the year is not past the end of the one before, whose number is too small.
    by_contra earlier
    cases year with
    | zero => exact earlier (Nat.zero_le day)
    | succ before =>
      have too_small := (leapless_year before (by omega)).2
      have ends := daysOfCycle_le (Nat.le_of_lt in_range)
      have : leapless day ≤ leapless (daysOfCycle (before + 1) - 1) :=
        leapless_mono (by omega) (by omega)
      omega
  · -- A day after the year has at least the number of the beginning of the next.
    by_contra later
    have not_last : year ≠ 399 := by
      rintro rfl
      exact later in_cycle
    have too_large := (leapless_year (year + 1) (by omega)).1
    have : leapless (daysOfCycle (year + 1)) ≤ leapless day :=
      leapless_mono (Nat.le_of_not_lt later) in_cycle
    omega

/-! ## The date of a day -/

/-- A date is looked for in its cycle, then in its year. -/
theorem civil_eq_dateFromMarch {n cycle : Int} {day year : Nat}
    (hc : (n + 719468).fdiv 146097 = cycle) (hd : ((n + 719468).fmod 146097).toNat = day)
    (hy : leapless day / 365 = year) :
    civil n
      = dateFromMarch (year + 400 * cycle) (day - (365 * year + year / 4 - year / 100)) := by
  subst hc hd hy
  rfl

/-- The date of a day is found in the year around it, from March to March. -/
theorem civil_in_year (n : Int) : ∃ (y : Int) (day : Nat), civil n = dateFromMarch y day
    ∧ day < yearLength (y + 1) ∧ daysToYear (y + 1) - 306 + day = n := by
  obtain ⟨parts, lt⟩ := floor_parts (n + 719468) (by decide : (0 : Int) < 146097)
  generalize hc : (n + 719468).fdiv 146097 = cycle at parts
  generalize hd : ((n + 719468).fmod 146097).toNat = day at parts lt
  obtain ⟨in_range, begun, not_over⟩ := year_of_day (Int.ofNat_lt.1 lt)
  generalize hy : leapless day / 365 = year at in_range begun not_over
  have here := daysToYear_cycles cycle year
  have next := daysToYear_cycles cycle (year + 1)
  rw [Int.natCast_add, Int.add_right_comm (year : Int), Int.natCast_one, daysToYear_succ] at next
  refine ⟨year + 400 * cycle, day - daysOfCycle year, ?_, ?_, ?_⟩
  · rw [civil_eq_dateFromMarch hc hd hy, daysOfCycle_of_lt in_range]
  · omega
  · omega

/-- The date of a day exists. -/
theorem valid_civil (n : Int) : (civil n).Valid := by
  obtain ⟨y, day, found, in_year, -⟩ := civil_in_year n
  exact found ▸ valid_dateFromMarch in_year

/-- The day number undoes the date of a day. -/
@[simp] theorem dayNumber_civil (n : Int) : dayNumber (civil n) = n := by
  obtain ⟨y, day, found, in_year, counted⟩ := civil_in_year n
  rw [found, dayNumber_dateFromMarch (le_of_lt_yearLength in_year), counted]

/-- The date of a day comes that many days after 1970-01-01. -/
@[simp] theorem elapsed_civil (n : Int) : (civil n).elapsed = n := by
  rw [← dayNumber_eq_elapsed (valid_civil n), dayNumber_civil]

/-- Day numbers and the dates of the calendar are the same days. -/
theorem civil_dayNumber {d : Date} (h : d.Valid) : civil (dayNumber d) = d := by
  rw [← (valid_civil _).elapsed_inj h, elapsed_civil, dayNumber_eq_elapsed h]

/-- Dates stand in the order of their days. -/
@[simp] theorem civil_before_iff (m n : Int) : (civil m).Before (civil n) ↔ m < n := by
  rw [← (valid_civil m).elapsed_lt_iff (valid_civil n), elapsed_civil, elapsed_civil]

/-- Two days have two dates. -/
@[simp] theorem civil_inj {m n : Int} : civil m = civil n ↔ m = n :=
  ⟨fun same => by rw [← elapsed_civil m, same, elapsed_civil], fun same => by rw [same]⟩

end ServiceRegistry.Time
