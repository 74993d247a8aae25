import LogRelay.Files
import LogRelay.RealtimeFlag
import LogRelay.Registry
import LogRelay.Time.Duration

/-!
# Hosts

A host is what all loggers of one process share: the files, the names, the clock, the threads and the
record of what the library has reported about itself. A hosted item is something that works on a host.
-/

namespace LogRelay

/-- A thread as the loggers see it. -/
structure Thread where
  /-- The number by which its lines name the thread. -/
  number : Nat
  /-- Its real-time flag. -/
  flag : RealtimeFlag
deriving DecidableEq, Repr

/-- What all loggers of a process share. -/
structure Host where
  /-- The files. -/
  files : FileTree
  /-- The names that are held. -/
  registry : Registry
  /-- What has been reported, in order. -/
  events : Array Event
  /-- The clock. -/
  clock : Clock
  /-- The number of the process. -/
  process : Nat
  /-- The number of the thread that was started last. -/
  lastThread : Nat

namespace Host

/-- A host on which nothing has happened yet. Its first thread has number one. -/
def initial (clock : Clock) (process : Nat) : Host := ⟨.initial, .empty, #[], clock, process, 1⟩

/-- The thread that a process starts with. -/
def firstThread : Thread := ⟨1, .fresh⟩

/-- Starts a thread. It is numbered as it is spawned, in the order in which threads are spawned, and not when
it writes its first JSON line. Under the second rule a thread could have another number; only the member of
its JSON lines that names the thread would show it. -/
def spawn (host : Host) : Thread × Host :=
  (⟨host.lastThread + 1, .fresh⟩, { host with lastThread := host.lastThread + 1 })

/-- Reports an event. -/
def report (host : Host) (event : Event) : Host := { host with events := host.events.push event }

/-- Reports events. -/
def reportAll (host : Host) (events : List Event) : Host :=
  { host with events := host.events ++ events.toArray }

/-- Claims a name. -/
def claim (host : Host) (name : String) (replace : Bool) : Option Claim × Host :=
  let claimed := host.registry.claim name replace
  (claimed.1, { host with registry := claimed.2.1 }.reportAll claimed.2.2)

/-- Drops a claim. -/
def release (host : Host) (claim : Claim) : Host :=
  let dropped := host.registry.drop claim
  { host with registry := dropped.1 }.reportAll dropped.2

@[simp]
theorem reportAll_nil (host : Host) : host.reportAll [] = host := by
  simp [reportAll]

theorem reportAll_singleton (host : Host) (event : Event) :
    host.reportAll [event] = host.report event := by
  simp [reportAll, report]

end Host

/-- Something that works on a host. -/
structure Hosted (σ : Type) where
  /-- The thing itself. -/
  item : σ
  /-- What it works on. -/
  host : Host

namespace Hosted

/-- Reports an event to the host. -/
def report {σ : Type} (state : Hosted σ) (event : Event) : Hosted σ :=
  { state with host := state.host.report event }

/-- A hosted item with a changed item. -/
def map {σ τ : Type} (state : Hosted σ) (change : σ → τ) : Hosted τ :=
  ⟨change state.item, state.host⟩

end Hosted

end LogRelay
