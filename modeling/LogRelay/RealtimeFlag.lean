/-!
# Real-time threads

A thread carries a flag that says whether it is real-time. A guard raises the flag and, when it is
dropped, puts back the value it found.
-/

namespace LogRelay

/-- A raised flag that is put back when the guard is dropped. -/
structure RealtimeGuard where
  /-- The value found when the guard was made. -/
  previous : Bool
deriving DecidableEq, Repr

/-- The real-time flag of one thread. -/
structure RealtimeFlag where
  /-- Whether the thread counts as real-time. -/
  raised : Bool
deriving DecidableEq, Repr

namespace RealtimeFlag

/-- The flag of a new thread. -/
def fresh : RealtimeFlag := ⟨false⟩

/-- Raises the flag. -/
def raise (flag : RealtimeFlag) : RealtimeGuard × RealtimeFlag := (⟨flag.raised⟩, ⟨true⟩)

/-- Drops a guard. -/
def drop (_flag : RealtimeFlag) (guard : RealtimeGuard) : RealtimeFlag := ⟨guard.previous⟩

end RealtimeFlag

/-- How a logger finds out whether its caller is real-time. -/
inductive Probe where
  | threadFlag
  | always
  | never
deriving DecidableEq, Repr

/-- What a probe answers on a thread with the given flag. -/
def Probe.ask : Probe → RealtimeFlag → Bool
  | threadFlag, flag => flag.raised
  | always, _ => true
  | never, _ => false

end LogRelay
