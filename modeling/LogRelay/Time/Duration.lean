import LogRelay.Text.Digits

/-!
# Durations

A span of time, counted in nanoseconds. Its debugging text uses the largest unit of which the span
holds at least one and writes no trailing zeros.
-/

namespace LogRelay

/-- A span of time. -/
structure Duration where
  /-- Length in nanoseconds. -/
  nanos : Nat
deriving DecidableEq, Repr, Inhabited

namespace Duration

/-- The empty span. -/
def zero : Duration := ⟨0⟩

/-- Nanoseconds in a second. -/
def nanosPerSecond : Nat := 1000000000

/-- A span of whole seconds and some nanoseconds. -/
def ofParts (seconds nanos : Nat) : Duration := ⟨seconds * nanosPerSecond + nanos⟩

/-- A span of whole seconds. -/
def ofSeconds (seconds : Nat) : Duration := ⟨seconds * nanosPerSecond⟩

/-- A span of whole milliseconds. -/
def ofMillis (millis : Nat) : Duration := ⟨millis * 1000000⟩

/-- Whole seconds in the span. -/
def seconds (span : Duration) : Nat := span.nanos / nanosPerSecond

/-- Nanoseconds beyond the whole seconds. -/
def subsecNanos (span : Duration) : Nat := span.nanos % nanosPerSecond

/-- Whole milliseconds beyond the whole seconds. -/
def subsecMillis (span : Duration) : Nat := span.subsecNanos / 1000000

/-- Whole milliseconds in the span. -/
def millis (span : Duration) : Nat := span.nanos / 1000000

/-- Seconds and milliseconds, separated by a point. -/
def clockText (span : Duration) : String :=
  String.ofList (Digits.decimal span.seconds ++ '.' :: Digits.padded 3 span.subsecMillis)

/-- An amount of a unit: whole units, then the fraction without trailing zeros. -/
def amount (places nanos : Nat) (unit : String) : String :=
  let whole := Digits.decimal (nanos / Nat.pow 10 places)
  let fraction := Digits.trimmed (Digits.last places (nanos % Nat.pow 10 places))
  String.ofList (if fraction = [] then whole else whole ++ '.' :: fraction) ++ unit

/-- Debugging text of a span. -/
def debugText (span : Duration) : String :=
  if nanosPerSecond ≤ span.nanos then amount 9 span.nanos "s"
  else if 1000000 ≤ span.nanos then amount 6 span.nanos "ms"
  else if 1000 ≤ span.nanos then amount 3 span.nanos "µs"
  else amount 0 span.nanos "ns"

end Duration

/-- A source of time stamps: the stamps it gives out in order, and how many it has given. -/
structure Clock where
  /-- The stamp given out by each reading. -/
  reading : Nat → Duration
  /-- Number of readings so far. -/
  taken : Nat

namespace Clock

/-- The stamp that the next reading gives out. -/
def now (clock : Clock) : Duration := clock.reading clock.taken

/-- The clock after one reading. -/
def tick (clock : Clock) : Clock := ⟨clock.reading, clock.taken + 1⟩

/-- A clock that starts at a time and advances by the same step at every reading. -/
def steady (start step : Nat) : Clock := ⟨fun count => ⟨start + count * step⟩, 0⟩

end Clock

end LogRelay
