import LogRelay.Level

/-!
# Severities

The five-valued scale of the log file, least severe first, and the two maps between it and the
capture scale. The capture scale has no `critical`: a critical message is captured as an error.
-/

namespace LogRelay

/-- How severe a recorded line is. -/
inductive Severity where
  | debug
  | info
  | warning
  | error
  | critical
deriving DecidableEq, Repr, Inhabited

namespace Severity

/-- All severities, least severe first. -/
def all : List Severity := [debug, info, warning, error, critical]

/-- Position on the scale, the least severe being zero. -/
def rank : Severity → Nat
  | debug => 0
  | info => 1
  | warning => 2
  | error => 3
  | critical => 4

/-- The severity at a position; every position past the end is the last one. -/
def ofRank : Nat → Severity
  | 0 => debug
  | 1 => info
  | 2 => warning
  | 3 => error
  | _ => critical

/-- Name written into log lines. -/
def name : Severity → String
  | debug => "debug"
  | info => "info"
  | warning => "warning"
  | error => "error"
  | critical => "critical"

/-- Reads a severity name, ignoring the case of ASCII letters. -/
def parse? (text : String) : Option Severity :=
  all.find? fun severity => severity.name = text.toLower

/-- Complaint about a name outside the scale. -/
def complaint (text : String) : String :=
  "Invalid log level: '" ++ text ++
    "'. Valid levels are: debug, info, warning, error, critical"

/-- A severity reaches a threshold when it is at least as severe. -/
def reaches (severity threshold : Severity) : Bool := threshold.rank ≤ severity.rank

/-- The capture level under which a severity is queued. -/
def toLevel : Severity → Level
  | debug => .debug
  | info => .info
  | warning => .warning
  | error => .error
  | critical => .error

/-- A number that stands for a severity reads back as that severity. -/
@[simp]
theorem ofRank_rank (severity : Severity) : ofRank severity.rank = severity := by
  cases severity <;> rfl

theorem ne_critical_of_warning_reaches {threshold : Severity}
    (hwarning : warning.reaches threshold = true) : threshold ≠ critical := by
  rintro rfl
  exact absurd hwarning (by decide)

end Severity

/-- The severity under which a captured message is recorded. -/
def Level.toSeverity : Level → Severity
  | .error => .error
  | .warning => .warning
  | .info => .info
  | .debug => .debug

/-- Both scales agree on what passes, as long as the threshold is on both of them. -/
theorem Level.passes_toLevel_iff {level : Level} {threshold : Severity}
    (hthreshold : threshold ≠ .critical) :
    level.passes threshold.toLevel = level.toSeverity.reaches threshold := by
  cases level <;> cases threshold <;> first | rfl | contradiction

end LogRelay
