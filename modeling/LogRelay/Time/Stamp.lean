import LogRelay.Time.Duration

/-!
# Time stamps

A moment is a count of nanoseconds since the first of January 1970, before or after it. A stamp
spells the civil date and the time of day of a moment, cut down to whole milliseconds.
-/

namespace LogRelay

/-- A moment in time. -/
structure Instant where
  /-- Nanoseconds since the start of 1970. -/
  nanos : Int
deriving DecidableEq, Repr

namespace Instant

/-- A moment given in seconds and nanoseconds on top of them. -/
def ofParts (seconds : Int) (nanos : Nat) : Instant := ⟨seconds * 1000000000 + nanos⟩

/-- The moment a span after the start of 1970. -/
def ofDuration (span : Duration) : Instant := ⟨span.nanos⟩

/-- Whole seconds since the start of 1970, rounded down. -/
def seconds (moment : Instant) : Int := moment.nanos / 1000000000

/-- Nanoseconds on top of the whole seconds. -/
def subsecNanos (moment : Instant) : Nat := (moment.nanos % 1000000000).toNat

/-- Whole milliseconds since the start of 1970, rounded down. -/
def millis (moment : Instant) : Int := moment.nanos / 1000000

end Instant

/-- A day of the calendar. -/
structure Date where
  /-- Year, counted astronomically: the year before year one is year zero. -/
  year : Int
  /-- Month of the year, from one. -/
  month : Nat
  /-- Day of the month, from one. -/
  day : Nat
deriving DecidableEq, Repr

namespace Date

/-- The day that is a number of days after the first of January 1970.

The count is moved to the first of March of year zero, so that the leap day is the last of its
year, and split into cycles of four hundred years. -/
def ofDayNumber (number : Int) : Date :=
  let shifted := number + 719468
  let cycle := shifted / 146097
  let dayOfCycle := (shifted % 146097).toNat
  let yearOfCycle :=
    (dayOfCycle - dayOfCycle / 1460 + dayOfCycle / 36524 - dayOfCycle / 146096) / 365
  let dayOfYear := dayOfCycle - (365 * yearOfCycle + yearOfCycle / 4 - yearOfCycle / 100)
  let monthOfYear := (5 * dayOfYear + 2) / 153
  let day := dayOfYear - (153 * monthOfYear + 2) / 5 + 1
  let month := if monthOfYear < 10 then monthOfYear + 3 else monthOfYear - 9
  let year := (yearOfCycle : Int) + cycle * 400
  ⟨if month ≤ 2 then year + 1 else year, month, day⟩

end Date

/-- A date with a time of day, to the millisecond. -/
structure Civil where
  /-- The day. -/
  date : Date
  /-- Hour of the day. -/
  hour : Nat
  /-- Minute of the hour. -/
  minute : Nat
  /-- Second of the minute. -/
  second : Nat
  /-- Millisecond of the second. -/
  milli : Nat
deriving DecidableEq, Repr

namespace Civil

/-- Milliseconds in a day. -/
def millisPerDay : Int := 86400000

/-- The date and time of a count of milliseconds since the start of 1970. -/
def ofMillis (millis : Int) : Civil :=
  let ofDay := (millis % millisPerDay).toNat
  ⟨Date.ofDayNumber (millis / millisPerDay), ofDay / 3600000, ofDay / 60000 % 60,
    ofDay / 1000 % 60, ofDay % 1000⟩

/-- Years that a stamp can spell. -/
def InRange (civil : Civil) : Prop := -262143 ≤ civil.date.year ∧ civil.date.year ≤ 262142

instance (civil : Civil) : Decidable civil.InRange :=
  inferInstanceAs (Decidable (_ ∧ _))

/-- A year: four digits, or a sign and at least four digits outside the years 0 to 9999. -/
def yearDigits (year : Int) : List Char :=
  if 0 ≤ year ∧ year ≤ 9999 then Digits.padded 4 year.toNat
  else (if year < 0 then '-' else '+') :: Digits.padded 4 year.natAbs

/-- Date and time of day with a separator between them. -/
def spelled (separator : Char) (civil : Civil) : List Char :=
  yearDigits civil.date.year ++ '-' :: Digits.padded 2 civil.date.month ++
    '-' :: Digits.padded 2 civil.date.day ++ separator :: Digits.padded 2 civil.hour ++
    ':' :: Digits.padded 2 civil.minute ++ ':' :: Digits.padded 2 civil.second ++
    '.' :: Digits.padded 3 civil.milli

end Civil

namespace Instant

/-- Civil date and time of a moment. -/
def civil (moment : Instant) : Civil := Civil.ofMillis moment.millis

/-- The stamp of a text line. -/
def textStamp (moment : Instant) : List Char := moment.civil.spelled ' '

/-- The stamp of a JSON line, which names the offset from universal time. -/
def jsonStamp (moment : Instant) : List Char :=
  moment.civil.spelled 'T' ++ ['+', '0', '0', '0', '0']

end Instant

end LogRelay
