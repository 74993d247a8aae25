import LogRelay.Level

/-!
# Muted captures

A muted capture takes the place of a capture where logging is switched off. It has no queue and no worker,
and nothing that is logged to it is looked at.
-/

namespace LogRelay

/-- A capture that captures nothing. -/
inductive MutedCapture where
  | muted
deriving DecidableEq, Repr

namespace MutedCapture

/-- The threshold, which nothing passes. -/
def threshold (_capture : MutedCapture) : Level := .error

/-- Whether messages of a level are captured. -/
def isEnabled (_capture : MutedCapture) (_level : Level) : Bool := false

/-- Number of messages waiting. -/
def pending (_capture : MutedCapture) : Nat := 0

/-- Number of messages refused. -/
def dropped (_capture : MutedCapture) : Nat := 0

/-- Whether there is a worker that runs. -/
def isRunning (_capture : MutedCapture) : Bool := false

end MutedCapture

end LogRelay
