import LogRelay.Event

/-!
# Workers

A worker runs one job again and again on a thread of its own, once per period, until it is told to
stop; then the job runs a last time. A job that breaks down ends the thread at once, which is noticed
when the worker is stopped.
-/

namespace LogRelay

/-- What has become of the thread of a worker. -/
inductive ThreadState where
  | running
  | brokeDown
  | joined
deriving DecidableEq, Repr

/-- A named thread that runs a job periodically. -/
structure Worker where
  /-- Name of the worker and of its thread. -/
  name : String
  /-- Time between two runs of the job. -/
  period : Duration
  /-- What has become of the thread. -/
  thread : ThreadState
deriving DecidableEq, Repr

namespace Worker

/-- A job: it changes a state and says whether it broke down. -/
abbrev Job (σ : Type) := σ → σ × Bool

/-- Whether a thread can carry a name. -/
def canName (name : String) : Bool := !name.toList.contains '\x00'

/-- A worker that has just been started. -/
def start (name : String) (period : Duration) : Worker × Event :=
  (⟨name, period, .running⟩, .workerStarted name period)

/-- Whether the job is still run. -/
def isRunning (worker : Worker) : Bool := worker.thread = .running

/-- One run of the job, if the thread still runs. -/
def pass {σ : Type} (worker : Worker) (job : Job σ) (state : σ) : Worker × σ :=
  if worker.isRunning then
    let done := job state
    (if done.2 then { worker with thread := .brokeDown } else worker, done.1)
  else (worker, state)

/-- What is reported when the thread has ended. -/
def farewell (worker : Worker) : Event :=
  if worker.isRunning then .workerStopped worker.name else .workerBrokeDown worker.name

/-- Stops the worker after a last run of the job. Stopping it again does nothing. -/
def stop {σ : Type} (worker : Worker) (job : Job σ) (state : σ) : Worker × σ × List Event :=
  if worker.thread = .joined then (worker, state, [])
  else
    let last := worker.pass job state
    ({ last.1 with thread := .joined }, last.2, [last.1.farewell])

end Worker

end LogRelay
