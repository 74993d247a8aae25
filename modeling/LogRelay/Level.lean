/-!
# Capture levels

The four levels on which a real-time thread filters, most severe first. Reading a level name never
fails where it matters to a caller: a name outside the scale means `info`.
-/

namespace LogRelay

/-- How urgent a captured message is. -/
inductive Level where
  | error
  | warning
  | info
  | debug
deriving DecidableEq, Repr, Inhabited

namespace Level

/-- All levels, most severe first. -/
def all : List Level := [error, warning, info, debug]

/-- Position on the scale, the most severe level being zero. -/
def rank : Level → Nat
  | error => 0
  | warning => 1
  | info => 2
  | debug => 3

/-- The level at a position; every position past the end is the last level. -/
def ofRank : Nat → Level
  | 0 => error
  | 1 => warning
  | 2 => info
  | _ => debug

/-- Lower-case name of a level. -/
def name : Level → String
  | error => "error"
  | warning => "warning"
  | info => "info"
  | debug => "debug"

/-- The name between brackets, as it stands in a displayed message. -/
def tag (level : Level) : String := "[" ++ level.name ++ "]"

/-- The name as a constructor is spelled in debugging output. -/
def label : Level → String
  | error => "Error"
  | warning => "Warning"
  | info => "Info"
  | debug => "Debug"

/-- Reads a level name, ignoring the case of ASCII letters. -/
def parse? (text : String) : Option Level := all.find? fun level => level.name = text.toLower

/-- Reads a level name; an unknown name means `info`. -/
def parseOrInfo (text : String) : Level := (parse? text).getD info

/-- A level passes a threshold when it is at least as severe. -/
def passes (level threshold : Level) : Bool := level.rank ≤ threshold.rank

/-- A number that stands for a level reads back as that level. -/
@[simp]
theorem ofRank_rank (level : Level) : ofRank level.rank = level := by
  cases level <;> rfl

end Level

end LogRelay
