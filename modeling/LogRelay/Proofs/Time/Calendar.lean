import LogRelay.Time.Stamp
import Mathlib.Algebra.Group.Int.Defs
import Mathlib.Algebra.Group.Nat.Defs
import Mathlib.Data.Int.Init
import Mathlib.Order.Monotone.Basic
import Mathlib.Tactic.IntervalCases

/-!
# The calendar, day by day

The dates that day numbers stand for are those of the Gregorian calendar: the day with number zero is the
first of January 1970, and the day after a day has the next date of the calendar, with a leap day in every
fourth year but for three centuries out of four. This file shows it for all days before and after, and
computes the number back from the date.
-/

namespace LogRelay

namespace Date

/-! ## The rules of the calendar -/

/-- Whether a year has a leap day. -/
def isLeap (year : Int) : Bool := year % 4 = 0 ∧ (year % 100 ≠ 0 ∨ year % 400 = 0)

/-- Number of days of a month. -/
def daysIn (year : Int) (month : Nat) : Nat :=
  if month = 2 then if isLeap year then 29 else 28
  else if month = 4 ∨ month = 6 ∨ month = 9 ∨ month = 11 then 30
  else 31

theorem daysIn_le (year : Int) (month : Nat) : daysIn year month ≤ 31 := by
  rw [daysIn]
  split
  · split
    · omega
    · omega
  · split
    · omega
    · omega

/-- A date that is in the calendar. -/
structure IsValid (date : Date) : Prop where
  /-- Months count from one, -/
  month_pos : 1 ≤ date.month
  /-- and a year has twelve of them. -/
  month_le : date.month ≤ 12
  /-- Days count from one, -/
  day_pos : 1 ≤ date.day
  /-- up to the length of the month. -/
  day_le : date.day ≤ daysIn date.year date.month

/-- The date of the day after. -/
def next (date : Date) : Date :=
  if date.day < daysIn date.year date.month then { date with day := date.day + 1 }
  else if date.month < 12 then ⟨date.year, date.month + 1, 1⟩
  else ⟨date.year + 1, 1, 1⟩

/-- The date of a day, found by counting from the first of January 1970, forwards and backwards. -/
inductive FallsOn : Date → Int → Prop where
  | epoch : FallsOn ⟨1970, 1, 1⟩ 0
  | after {date : Date} {number : Int} (hfalls : FallsOn date number) : FallsOn date.next (number + 1)
  | before {date : Date} {number : Int} (hvalid : date.IsValid) (hfalls : FallsOn date.next (number + 1)) :
      FallsOn date number

/-! ## Years that begin in March -/

/-- Days before the first of March of a year, counted from the first of March of year zero. -/
def daysBeforeMarch (year : Int) : Int := 365 * year + year / 4 - year / 100 + year / 400

/-- Number of days from the first of March of a year to the next: the leap day is the last of them. -/
def daysFromMarch (year : Int) : Nat := if isLeap (year + 1) then 366 else 365

/-- The date of a day of a year that begins in March. -/
def ofMarch (year : Int) (dayOfYear : Nat) : Date :=
  let monthOfYear := (5 * dayOfYear + 2) / 153
  let month := if monthOfYear < 10 then monthOfYear + 3 else monthOfYear - 9
  ⟨if month ≤ 2 then year + 1 else year, month, dayOfYear - (153 * monthOfYear + 2) / 5 + 1⟩

theorem le_daysFromMarch (year : Int) : 365 ≤ daysFromMarch year := by
  rw [daysFromMarch]
  split
  · decide
  · decide

theorem daysFromMarch_pos (year : Int) : 0 < daysFromMarch year :=
  Nat.lt_of_lt_of_le (by decide) (le_daysFromMarch year)

theorem daysFromMarch_le (year : Int) : daysFromMarch year ≤ 366 := by
  rw [daysFromMarch]
  split
  · decide
  · decide

theorem daysBeforeMarch_succ (year : Int) :
    daysBeforeMarch (year + 1) = daysBeforeMarch year + daysFromMarch year := by
  rw [daysBeforeMarch, daysBeforeMarch, daysFromMarch]
  split
  · next hleap =>
    simp only [isLeap, decide_eq_true_eq] at hleap
    omega
  · next hleap =>
    simp only [isLeap, decide_eq_true_eq] at hleap
    omega

theorem exists_year (year : Int) : ∃ (cycle : Int) (century four one : Nat),
    century ≤ 3 ∧ four ≤ 24 ∧ one ≤ 3 ∧ year = 400 * cycle + 100 * century + 4 * four + one :=
  ⟨year / 400, (year % 400 / 100).toNat, (year % 100 / 4).toNat, (year % 4).toNat, by omega, by omega,
    by omega, by omega⟩

theorem daysBeforeMarch_year (cycle : Int) {century four one : Nat} (hcentury : century ≤ 3)
    (hfour : four ≤ 24) (hone : one ≤ 3) :
    daysBeforeMarch (400 * cycle + 100 * century + 4 * four + one) =
      146097 * cycle + 36524 * century + 1461 * four + 365 * one := by
  rw [daysBeforeMarch]
  omega

theorem daysFromMarch_year (cycle : Int) {century four one : Nat} (hcentury : century ≤ 3)
    (hfour : four ≤ 24) (hone : one ≤ 3) :
    daysFromMarch (400 * cycle + 100 * century + 4 * four + one) =
      if one = 3 ∧ (four = 24 → century = 3) then 366 else 365 := by
  have hleap : isLeap (400 * cycle + 100 * century + 4 * four + one + 1) = true ↔
      one = 3 ∧ (four = 24 → century = 3) := by
    simp only [isLeap, decide_eq_true_eq]
    omega
  rw [daysFromMarch]
  simp only [hleap]

/-- The year of a day in a cycle of four hundred years. -/
theorem yearOfCycle_eq {century four one dayOfYear : Nat} (hcentury : century ≤ 3) (hfour : four ≤ 24)
    (hone : one ≤ 3) (hday : dayOfYear < if one = 3 ∧ (four = 24 → century = 3) then 366 else 365)
    {day : Nat} (hsum : day = 36524 * century + 1461 * four + 365 * one + dayOfYear) :
    (day - day / 1460 + day / 36524 - day / 146096) / 365 = 100 * century + 4 * four + one := by
  have hlast : dayOfYear ≤ 365 := by
    split at hday
    · omega
    · omega
  -- The last day of a cycle counts as a century of its own, which is taken away again.
  have hcenturies : day / 36524 = century + day / 146096 := by
    by_cases hrest : 1461 * four + 365 * one + dayOfYear < 36524
    · have hnone : day / 146096 = 0 := Nat.div_eq_of_lt (by omega)
      rw [hnone, Nat.add_zero]
      exact Nat.div_eq_of_lt_le (by omega) (by omega)
    · have hfinal : four = 24 ∧ one = 3 ∧ dayOfYear = 365 := by omega
      obtain ⟨rfl, rfl, rfl⟩ := hfinal
      have hleap : century = 3 := by
        refine Decidable.byContradiction fun hother => ?_
        simp [hother] at hday
      obtain rfl := hleap
      obtain rfl := hsum
      rfl
  -- The leap days before a day are those of whole spans of 1460 days, unless it is in the last year of four.
  obtain ⟨carry, hcarry, hfours⟩ : ∃ carry,
      (carry = 0 ∧ dayOfYear < 365 ∨ carry = 1 ∧ 0 < dayOfYear ∧ dayOfYear ≤ 365) ∧
        day / 1460 = 25 * century + four + carry := by
    by_cases hrest : 24 * century + four + 365 * one + dayOfYear < 1460
    · refine ⟨0, .inl ⟨rfl, ?_⟩, by omega⟩
      split at hday
      · omega
      · omega
    · exact ⟨1, .inr ⟨rfl, by omega, hlast⟩, by omega⟩
  rw [hcenturies, hfours]
  generalize day / 146096 = extra
  omega

/-- The date of a day number, found from the years that begin in March. -/
theorem ofDayNumber_daysBeforeMarch {year : Int} {dayOfYear : Nat} (hday : dayOfYear < daysFromMarch year) :
    ofDayNumber (daysBeforeMarch year + dayOfYear - 719468) = ofMarch year dayOfYear := by
  obtain ⟨cycle, century, four, one, hcentury, hfour, hone, rfl⟩ := exists_year year
  rw [daysFromMarch_year cycle hcentury hfour hone] at hday
  obtain ⟨day, hsum⟩ : ∃ day, day = 36524 * century + 1461 * four + 365 * one + dayOfYear := ⟨_, rfl⟩
  have hyear := yearOfCycle_eq hcentury hfour hone hday hsum
  have hlast : dayOfYear ≤ 365 := by
    split at hday
    · omega
    · omega
  have hcycle : day < 146097 := by
    by_cases hleap : one = 3 ∧ (four = 24 → century = 3)
    · omega
    · rw [if_neg hleap] at hday
      omega
  have hshifted : daysBeforeMarch (400 * cycle + 100 * century + 4 * four + one) + dayOfYear - 719468 +
      719468 = 146097 * cycle + day := by
    rw [daysBeforeMarch_year cycle hcentury hfour hone]
    omega
  have hquotient : (146097 * cycle + day) / 146097 = cycle := by omega
  have hrest : ((146097 * cycle + day) % 146097).toNat = day := by omega
  have hfours : (100 * century + 4 * four + one) / 4 = 25 * century + four := by omega
  have hcenturies : (100 * century + 4 * four + one) / 100 = century := by omega
  have hdayOfYear : day - (365 * (100 * century + 4 * four + one) + (100 * century + 4 * four + one) / 4 -
      (100 * century + 4 * four + one) / 100) = dayOfYear := by
    rw [hfours, hcenturies, hsum]
    omega
  have hsame : ((100 * century + 4 * four + one : Nat) : Int) + cycle * 400 =
      400 * cycle + 100 * century + 4 * four + one := by omega
  rw [ofDayNumber]
  simp only [hshifted, hquotient, hrest, hyear, hdayOfYear, hsame]
  rfl

/-- Every day is in some year that begins in March. -/
theorem exists_march (number : Int) : ∃ (year : Int) (dayOfYear : Nat),
    dayOfYear < daysFromMarch year ∧ number = daysBeforeMarch year + dayOfYear - 719468 := by
  induction number with
  | zero => exact ⟨1969, 306, by decide, by decide⟩
  | succ number induction =>
      obtain ⟨year, dayOfYear, hday, hnumber⟩ := induction
      by_cases hsame : dayOfYear + 1 < daysFromMarch year
      · exact ⟨year, dayOfYear + 1, hsame, by omega⟩
      · have hstep := daysBeforeMarch_succ year
        exact ⟨year + 1, 0, daysFromMarch_pos (year + 1), by omega⟩
  | pred number induction =>
      obtain ⟨year, dayOfYear, hday, hnumber⟩ := induction
      by_cases hsame : 0 < dayOfYear
      · exact ⟨year, dayOfYear - 1, by omega, by omega⟩
      · have hstep := daysBeforeMarch_succ (year - 1)
        rw [Int.sub_add_cancel] at hstep
        have hsome := daysFromMarch_pos (year - 1)
        exact ⟨year - 1, daysFromMarch (year - 1) - 1, by omega, by omega⟩

/-! ## Months of a year that begins in March -/

/-- Days of such a year before a month, counted from zero in March. Five months in a row take 153 days. -/
def daysBeforeMonth (monthOfYear : Nat) : Nat := (153 * monthOfYear + 2) / 5

/-- The month of the calendar. -/
def calendarMonth (monthOfYear : Nat) : Nat := if monthOfYear < 10 then monthOfYear + 3 else monthOfYear - 9

/-- The year of the calendar: January and February are in the next one. -/
def calendarYear (year : Int) (monthOfYear : Nat) : Int :=
  if calendarMonth monthOfYear ≤ 2 then year + 1 else year

theorem exists_month {dayOfYear : Nat} (hday : dayOfYear < 366) : ∃ monthOfYear day,
    monthOfYear < 12 ∧ dayOfYear = daysBeforeMonth monthOfYear + day ∧
      daysBeforeMonth monthOfYear + day < daysBeforeMonth (monthOfYear + 1) := by
  refine ⟨(5 * dayOfYear + 2) / 153, dayOfYear - daysBeforeMonth ((5 * dayOfYear + 2) / 153), ?_, ?_, ?_⟩
  · omega
  · rw [daysBeforeMonth]
    omega
  · rw [daysBeforeMonth, daysBeforeMonth]
    omega

theorem ofMarch_daysBeforeMonth (year : Int) {monthOfYear day : Nat}
    (hday : daysBeforeMonth monthOfYear + day < daysBeforeMonth (monthOfYear + 1)) :
    ofMarch year (daysBeforeMonth monthOfYear + day) =
      ⟨calendarYear year monthOfYear, calendarMonth monthOfYear, day + 1⟩ := by
  have hmonth : (5 * (daysBeforeMonth monthOfYear + day) + 2) / 153 = monthOfYear := by
    rw [daysBeforeMonth, daysBeforeMonth] at hday
    rw [daysBeforeMonth]
    omega
  have hrest : daysBeforeMonth monthOfYear + day - (153 * monthOfYear + 2) / 5 = day :=
    Nat.add_sub_cancel_left _ _
  rw [ofMarch]
  simp only [hmonth, hrest]
  rfl

/-- A month ends where the next one begins; February ends with the year that begins in March. -/
theorem daysIn_calendarMonth (year : Int) {monthOfYear : Nat} (hmonth : monthOfYear < 12) :
    daysBeforeMonth monthOfYear + daysIn (calendarYear year monthOfYear) (calendarMonth monthOfYear) =
      min (daysBeforeMonth (monthOfYear + 1)) (daysFromMarch year) := by
  rw [daysFromMarch]
  obtain hbefore | rfl : monthOfYear < 11 ∨ monthOfYear = 11 := by omega
  · have hlength : daysBeforeMonth monthOfYear +
        daysIn (calendarYear year monthOfYear) (calendarMonth monthOfYear) =
          daysBeforeMonth (monthOfYear + 1) := by
      interval_cases monthOfYear <;> rfl
    have hearly : daysBeforeMonth (monthOfYear + 1) ≤ 337 := by
      rw [daysBeforeMonth]
      omega
    rw [hlength]
    split
    · omega
    · omega
  · have hmonth : calendarMonth 11 = 2 := rfl
    have hyear : calendarYear year 11 = year + 1 := rfl
    rw [hmonth, hyear, daysIn, if_pos rfl]
    split
    · rfl
    · rfl

theorem next_of_lt {year : Int} {month day : Nat} (hday : day < daysIn year month) :
    next ⟨year, month, day⟩ = ⟨year, month, day + 1⟩ := by
  rw [next, if_pos hday]

theorem next_of_month_end {year : Int} {month day : Nat} (hday : daysIn year month ≤ day)
    (hmonth : month < 12) : next ⟨year, month, day⟩ = ⟨year, month + 1, 1⟩ := by
  rw [next, if_neg (Nat.not_lt.mpr hday), if_pos hmonth]

theorem next_of_year_end {year : Int} {day : Nat} (hday : daysIn year 12 ≤ day) :
    next ⟨year, 12, day⟩ = ⟨year + 1, 1, 1⟩ := by
  rw [next, if_neg (Nat.not_lt.mpr hday), if_neg (Nat.lt_irrefl 12)]

theorem next_of_month_last {year : Int} {month day : Nat} (hmonth : month < 11)
    (hlast : daysIn (calendarYear year month) (calendarMonth month) ≤ day) :
    next ⟨calendarYear year month, calendarMonth month, day⟩ =
      ⟨calendarYear year (month + 1), calendarMonth (month + 1), 1⟩ := by
  obtain hbefore | rfl | rfl : month < 9 ∨ month = 9 ∨ month = 10 := by omega
  · have hthis : calendarMonth month = month + 3 := if_pos (Nat.lt_succ_of_lt hbefore)
    have hthat : calendarMonth (month + 1) = month + 1 + 3 := if_pos (Nat.succ_lt_succ hbefore)
    have hyear : calendarYear year (month + 1) = calendarYear year month := by
      rw [calendarYear, calendarYear, if_neg (by omega), if_neg (by omega)]
    rw [next_of_month_end hlast (by omega), hyear, hthis, hthat]
  · exact next_of_year_end hlast
  · exact next_of_month_end hlast (by decide)

/-- The day after a day has the next date, within a year that begins in March and at its end. -/
theorem next_ofMarch {year : Int} {dayOfYear : Nat} (hday : dayOfYear < daysFromMarch year) :
    (ofMarch year dayOfYear).next =
      if dayOfYear + 1 < daysFromMarch year then ofMarch year (dayOfYear + 1) else ofMarch (year + 1) 0 := by
  obtain ⟨month, day, hmonth, rfl, hin⟩ := exists_month (Nat.lt_of_lt_of_le hday (daysFromMarch_le year))
  have hlength := daysIn_calendarMonth year hmonth
  have hleast := le_daysFromMarch year
  rw [ofMarch_daysBeforeMonth year hin]
  by_cases hlast : day + 1 < daysIn (calendarYear year month) (calendarMonth month)
  · have hlater : daysBeforeMonth month + (day + 1) < daysBeforeMonth (month + 1) := by omega
    rw [next_of_lt hlast, if_pos (by omega), Nat.add_assoc (daysBeforeMonth month),
      ofMarch_daysBeforeMonth year hlater]
  · have hover := Nat.not_lt.mp hlast
    obtain hbefore | rfl : month < 11 ∨ month = 11 := by omega
    · have hearly : daysBeforeMonth (month + 1) ≤ 337 := by
        rw [daysBeforeMonth]
        omega
      have hend : daysBeforeMonth month + day + 1 = daysBeforeMonth (month + 1) + 0 := by omega
      have hnext : daysBeforeMonth (month + 1) + 0 < daysBeforeMonth (month + 1 + 1) := by
        simp only [daysBeforeMonth]
        omega
      rw [next_of_month_last hbefore hover, if_pos (by omega), hend, ofMarch_daysBeforeMonth year hnext]
    · have hall : daysBeforeMonth (11 + 1) = 367 := rfl
      have hmost := daysFromMarch_le year
      rw [if_neg (by omega)]
      exact next_of_month_end hover (by decide)

/-! ## The date of a day number -/

theorem ofDayNumber_succ (number : Int) : ofDayNumber (number + 1) = (ofDayNumber number).next := by
  obtain ⟨year, dayOfYear, hday, rfl⟩ := exists_march number
  rw [ofDayNumber_daysBeforeMarch hday, next_ofMarch hday]
  split
  · next hsame =>
    rw [← ofDayNumber_daysBeforeMarch hsame]
    congr 1
    omega
  · next hlast =>
    have hstep := daysBeforeMarch_succ year
    rw [← ofDayNumber_daysBeforeMarch (daysFromMarch_pos (year + 1))]
    congr 1
    omega

theorem isValid_ofDayNumber (number : Int) : (ofDayNumber number).IsValid := by
  obtain ⟨year, dayOfYear, hday, rfl⟩ := exists_march number
  rw [ofDayNumber_daysBeforeMarch hday]
  obtain ⟨month, day, hmonth, rfl, hin⟩ := exists_month (Nat.lt_of_lt_of_le hday (daysFromMarch_le year))
  have hlength := daysIn_calendarMonth year hmonth
  rw [ofMarch_daysBeforeMonth year hin]
  have hmonths : 1 ≤ calendarMonth month ∧ calendarMonth month ≤ 12 := by
    rw [calendarMonth]
    split
    · omega
    · omega
  have hdays : day + 1 ≤ daysIn (calendarYear year month) (calendarMonth month) := by omega
  exact ⟨hmonths.1, hmonths.2, Nat.succ_pos day, hdays⟩

/-! ## The day number of a date -/

/-- Month of the year that begins in March, counted from zero. -/
def monthOfYear (date : Date) : Nat := if date.month ≤ 2 then date.month + 9 else date.month - 3

theorem monthOfYear_lt {date : Date} (hmonth : date.month ≤ 12) : date.monthOfYear < 12 := by
  rw [monthOfYear]
  split
  · omega
  · omega

/-- The year that begins in March. -/
def marchYear (date : Date) : Int := if date.month ≤ 2 then date.year - 1 else date.year

/-- Number of the day with a date: the days before its year, before its month, and before it in the month. -/
def dayNumber (date : Date) : Int :=
  daysBeforeMarch date.marchYear + daysBeforeMonth date.monthOfYear + date.day - 719469

/-- The number computed from the date of a day is the number of the day. -/
theorem dayNumber_ofDayNumber (number : Int) : (ofDayNumber number).dayNumber = number := by
  obtain ⟨year, dayOfYear, hday, rfl⟩ := exists_march number
  rw [ofDayNumber_daysBeforeMarch hday]
  obtain ⟨month, day, hmonth, rfl, hin⟩ := exists_month (Nat.lt_of_lt_of_le hday (daysFromMarch_le year))
  rw [ofMarch_daysBeforeMonth year hin]
  have hyear : marchYear ⟨calendarYear year month, calendarMonth month, day + 1⟩ = year := by
    simp only [marchYear, calendarYear]
    split
    · exact Int.add_sub_cancel year 1
    · rfl
  have hmonthOfYear : monthOfYear ⟨calendarYear year month, calendarMonth month, day + 1⟩ = month := by
    simp only [monthOfYear, calendarMonth]
    split
    · split
      · omega
      · omega
    · split
      · omega
      · omega
  rw [dayNumber, hyear, hmonthOfYear]
  simp only
  omega

/-- Every date of the calendar is the date of the number computed from it. -/
theorem ofDayNumber_dayNumber {date : Date} (hvalid : date.IsValid) : ofDayNumber date.dayNumber = date := by
  obtain ⟨hmonth, htwelve, hday, hlast⟩ := hvalid
  have hcalendar : calendarMonth date.monthOfYear = date.month := by
    rw [monthOfYear, calendarMonth]
    split
    · rw [if_neg (by omega)]
      omega
    · rw [if_pos (by omega)]
      omega
  have hyear : calendarYear date.marchYear date.monthOfYear = date.year := by
    rw [calendarYear, hcalendar, marchYear]
    split
    · exact Int.sub_add_cancel date.year 1
    · rfl
  have hlength := daysIn_calendarMonth date.marchYear (monthOfYear_lt htwelve)
  rw [hcalendar, hyear] at hlength
  have hnumber : date.dayNumber =
      daysBeforeMarch date.marchYear + (daysBeforeMonth date.monthOfYear + (date.day - 1) : Nat) - 719468 := by
    rw [dayNumber]
    omega
  rw [hnumber, ofDayNumber_daysBeforeMarch (by omega), ofMarch_daysBeforeMonth _ (by omega), hcalendar, hyear,
    Nat.sub_add_cancel hday]

/-! ## The dates that days fall on -/

/-- Every day falls on the date of its number. -/
theorem fallsOn_ofDayNumber (number : Int) : FallsOn (ofDayNumber number) number := by
  induction number with
  | zero => exact .epoch
  | succ number induction =>
      rw [ofDayNumber_succ]
      exact .after induction
  | pred number induction =>
      refine .before (isValid_ofDayNumber _) ?_
      rw [← ofDayNumber_succ, Int.sub_add_cancel]
      exact induction

theorem FallsOn.eq_ofDayNumber {date : Date} {number : Int} (hfalls : FallsOn date number) :
    date = ofDayNumber number := by
  induction hfalls with
  | epoch => rfl
  | after _ induction => rw [ofDayNumber_succ, ← induction]
  | @before date number hvalid _ induction =>
      have hdate := ofDayNumber_dayNumber hvalid
      have hnext : ofDayNumber (date.dayNumber + 1) = ofDayNumber (number + 1) := by
        rw [ofDayNumber_succ, hdate, induction]
      have hnumber : date.dayNumber + 1 = number + 1 := by
        rw [← dayNumber_ofDayNumber (date.dayNumber + 1), hnext, dayNumber_ofDayNumber]
      obtain rfl : date.dayNumber = number := by omega
      exact hdate.symm

theorem FallsOn.dayNumber_eq {date : Date} {number : Int} (hfalls : FallsOn date number) :
    date.dayNumber = number := by
  rw [hfalls.eq_ofDayNumber, dayNumber_ofDayNumber]

/-! ## The order of dates -/

/-- Whether a date comes before another one: by the year, then by the month, then by the day. -/
def Before (date other : Date) : Prop :=
  date.year < other.year ∨ date.year = other.year ∧
    (date.month < other.month ∨ date.month = other.month ∧ date.day < other.day)

theorem Before.trans {date other last : Date} (hfirst : date.Before other) (hsecond : other.Before last) :
    date.Before last := by
  rw [Before] at *
  omega

theorem before_next (date : Date) : date.Before date.next := by
  rw [Before, next]
  split
  · exact .inr ⟨rfl, .inr ⟨rfl, Nat.lt_succ_self date.day⟩⟩
  · split
    · exact .inr ⟨rfl, .inl (Nat.lt_succ_self date.month)⟩
    · exact .inl (Int.lt_succ date.year)

theorem before_ofDayNumber {first second : Int} (hlt : first < second) :
    (ofDayNumber first).Before (ofDayNumber second) := by
  induction second, Int.add_one_le_of_lt hlt using Int.leInduction with
  | base =>
      rw [ofDayNumber_succ]
      exact before_next _
  | succ later hle induction =>
      rw [ofDayNumber_succ]
      exact (induction (Int.lt_of_lt_of_le (Int.lt_succ first) hle)).trans (before_next _)

end Date

end LogRelay
