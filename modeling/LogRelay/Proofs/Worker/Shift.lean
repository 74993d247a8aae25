import LogRelay.Worker

/-!
# The shift of a worker

A worker and its owner take turns, one step at a time. The thread looks at the flag, runs its job, and waits
for its period to pass or for somebody to wake it; the owner looks at the worker, stops it or drops it, and
a stop clears the flag, takes the handle of the thread, wakes the thread and waits until it is over. Between
any two of these steps the other side may take some of its own. A run of the job and a stop that nothing
interrupts are those of the worker itself.
-/

namespace LogRelay.Worker

/-- Where the thread of a worker stands. -/
inductive ThreadStage where
  /-- It has to look at the flag. -/
  | checking
  /-- In a run of the job, which is the last if the flag was clear. -/
  | draining (last : Bool)
  /-- It has to wait for its period. -/
  | parking
  /-- Waiting for its period. -/
  | parked
  /-- Over after the last run. -/
  | ended
  /-- Over as the job broke down. -/
  | brokeDown
deriving DecidableEq, Repr

namespace ThreadStage

/-- Whether the thread is over. -/
def isOver : ThreadStage → Bool
  | ended | brokeDown => true
  | _ => false

/-- What the worker knows of its thread. -/
def state : ThreadStage → ThreadState
  | brokeDown => .brokeDown
  | _ => .running

end ThreadStage

/-- Where the owner of a worker stands. -/
inductive OwnerStage where
  /-- In no call. -/
  | idle
  /-- In a look at the worker, having seen whether its thread is still there; it has to look at the flag. -/
  | looked (alive : Bool)
  /-- In a stop or drop that has cleared the flag. -/
  | cleared (dropping : Bool)
  /-- In a stop or drop that has the handle. -/
  | holding (dropping : Bool)
  /-- In a stop or drop that has woken the thread and waits until it is over. -/
  | joining (dropping : Bool)
  /-- It has dropped the worker. -/
  | gone
deriving DecidableEq, Repr

/-- A call of the owner. -/
inductive Call where
  | look
  | stop
  | drop
deriving DecidableEq, Repr

/-- What happens next: a step of the thread or of the owner, who chooses a call when it is in none; the wait
of the thread is over by itself; somebody else wakes the thread; or somebody changes what the job works on. -/
inductive Move (σ : Type) where
  | thread
  | owner (call : Call)
  | wake
  | signal
  | change (state : σ)
deriving DecidableEq, Repr

/-- A worker with its thread and its owner, what the job works on, and what has become of it. -/
structure Shift (σ : Type) where
  /-- Name of the worker. -/
  name : String
  /-- Time between two runs of the job. -/
  period : Duration
  /-- The flag. -/
  running : Bool
  /-- Whether the worker still has the handle of its thread. -/
  hasHandle : Bool
  /-- Whether the thread has been woken for its next wait. -/
  woken : Bool
  /-- Where the thread stands. -/
  thread : ThreadStage
  /-- Where the owner stands. -/
  owner : OwnerStage
  /-- What the job works on. -/
  state : σ
  /-- The number of runs of the job that have begun. -/
  begun : Nat
  /-- Whether each run of the job that is over broke down. -/
  ends : List Bool
  /-- The number of stops and drops that have begun. -/
  stops : Nat
  /-- The number of stops and drops that have returned. -/
  returns : Nat
  /-- What is reported. -/
  events : List Event
deriving DecidableEq, Repr

namespace Shift

variable {σ : Type}

/-- A worker that has just been started. -/
def start (name : String) (period : Duration) (state : σ) : Shift σ :=
  ⟨name, period, true, true, false, .checking, .idle, state, 0, [], 0, 0,
    [(Worker.start name period).2]⟩

/-- The worker. -/
def worker (shift : Shift σ) : Worker :=
  ⟨shift.name, shift.period, if shift.hasHandle then shift.thread.state else .joined⟩

/-- What is reported when the thread has been joined. -/
def farewell (shift : Shift σ) : Event := Worker.farewell ⟨shift.name, shift.period, shift.thread.state⟩

/-- The thread looks at the flag once more. -/
def resume (shift : Shift σ) : Shift σ := { shift with woken := false, thread := .checking }

/-- The thread takes its next step. -/
def work (job : Job σ) (shift : Shift σ) : Shift σ :=
  match shift.thread with
  | .checking => { shift with thread := .draining (!shift.running), begun := shift.begun + 1 }
  | .draining last =>
      let done := job shift.state
      { shift with
        thread := if done.2 then .brokeDown else if last then .ended else .parking
        state := done.1
        ends := shift.ends ++ [done.2] }
  | .parking => if shift.woken then shift.resume else { shift with thread := .parked }
  | .parked => if shift.woken then shift.resume else shift
  | .ended | .brokeDown => shift

/-- The owner begins a stop, or a drop, which stops. -/
def halt (dropping : Bool) (shift : Shift σ) : Shift σ :=
  { shift with running := false, owner := .cleared dropping, stops := shift.stops + 1 }

/-- A stop or drop returns. -/
def leave (dropping : Bool) (shift : Shift σ) : Shift σ :=
  { shift with owner := if dropping then .gone else .idle, returns := shift.returns + 1 }

/-- The owner takes its next step. -/
def act (call : Call) (shift : Shift σ) : Shift σ :=
  match shift.owner with
  | .idle =>
      match call with
      | .look => { shift with owner := .looked (shift.hasHandle && !shift.thread.isOver) }
      | .stop => shift.halt false
      | .drop => shift.halt true
  | .looked _ => { shift with owner := .idle }
  | .cleared dropping =>
      if shift.hasHandle then { shift with hasHandle := false, owner := .holding dropping }
      else shift.leave dropping
  | .holding dropping => { shift with woken := true, owner := .joining dropping }
  | .joining dropping =>
      if shift.thread.isOver then
        leave dropping { shift with events := shift.events ++ [shift.farewell] }
      else shift
  | .gone => shift

/-- What a look at the worker answers when the owner now looks at the flag. -/
def answer? (shift : Shift σ) : Option Bool :=
  match shift.owner with
  | .looked alive => some (alive && shift.running)
  | _ => none

/-- The next step. -/
def step (job : Job σ) (shift : Shift σ) : Move σ → Shift σ
  | .thread => shift.work job
  | .owner call => shift.act call
  | .wake => if shift.thread = .parked then shift.resume else shift
  | .signal => { shift with woken := true }
  | .change state => { shift with state := state }

/-- Steps in the order of a schedule. -/
def run (job : Job σ) (schedule : List (Move σ)) (shift : Shift σ) : Shift σ :=
  schedule.foldl (step job) shift

theorem run_append (job : Job σ) (front back : List (Move σ)) (shift : Shift σ) :
    run job (front ++ back) shift = run job back (run job front shift) := List.foldl_append

/-! ## What nothing interrupts -/

variable {job : Job σ} {shift : Shift σ}

/-- The steps of a run of the job, with the wait behind it. -/
def cycle : List (Move σ) := [.thread, .thread, .thread, .wake]

/-- The steps of the first stop. -/
def firstStop : List (Move σ) :=
  [.owner .stop, .owner .stop, .owner .stop, .thread, .thread, .thread, .owner .stop]

/-- The steps of a later stop. -/
def laterStop : List (Move σ) := [.owner .stop, .owner .stop]

/-- A run of the job that nothing interrupts is one of the worker. -/
theorem run_cycle (hhandle : shift.hasHandle = true) (hrunning : shift.running = true)
    (hstage : shift.thread = .checking ∨ shift.thread = .brokeDown) :
    let alone := run job cycle shift
    let passed := shift.worker.pass job shift.state
    alone.worker = passed.1 ∧ alone.state = passed.2 ∧
      (alone.thread = .checking ∨ alone.thread = .brokeDown) := by
  intro alone passed
  obtain hchecking | hbroken := hstage
  · cases hjob : (job shift.state).2 with
    | true =>
        simp [alone, passed, run, cycle, step, work, hchecking, hrunning, hjob, worker, hhandle,
          ThreadStage.state, pass, isRunning]
    | false =>
        cases hwoken : shift.woken <;>
          simp [alone, passed, run, cycle, step, work, hchecking, hrunning, hjob, hwoken, worker, hhandle,
            ThreadStage.state, pass, isRunning, resume]
  · simp [alone, passed, run, cycle, step, work, hbroken, worker, hhandle, ThreadStage.state, pass,
      isRunning]

/-- A first stop that nothing interrupts is one of the worker. -/
theorem run_firstStop (hhandle : shift.hasHandle = true) (hidle : shift.owner = .idle)
    (hstage : shift.thread = .checking ∨ shift.thread = .parked ∨ shift.thread = .brokeDown) :
    let alone := run job firstStop shift
    let stopped := shift.worker.stop job shift.state
    alone.worker = stopped.1 ∧ alone.state = stopped.2.1 ∧
      alone.events = shift.events ++ stopped.2.2 ∧ alone.owner = .idle := by
  intro alone stopped
  obtain hchecking | hparked | hbroken := hstage
  · cases hjob : (job shift.state).2 <;>
      simp [alone, stopped, run, firstStop, step, act, halt, leave, work, hidle, hchecking, hjob, hhandle,
        worker, farewell, Worker.farewell, ThreadStage.state, ThreadStage.isOver, stop, pass, isRunning]
  · cases hjob : (job shift.state).2 <;>
      simp [alone, stopped, run, firstStop, step, act, halt, leave, work, hidle, hparked, hjob, hhandle,
        worker, farewell, Worker.farewell, ThreadStage.state, ThreadStage.isOver, stop, pass, isRunning,
        resume]
  · simp [alone, stopped, run, firstStop, step, act, halt, leave, work, hidle, hbroken, hhandle,
      worker, farewell, Worker.farewell, ThreadStage.state, ThreadStage.isOver, stop, pass, isRunning]

/-- A later stop that nothing interrupts is one of the worker. -/
theorem run_laterStop (hhandle : shift.hasHandle = false) (hidle : shift.owner = .idle) :
    let alone := run job laterStop shift
    let stopped := shift.worker.stop job shift.state
    alone.worker = stopped.1 ∧ alone.state = stopped.2.1 ∧
      alone.events = shift.events ++ stopped.2.2 ∧ alone.owner = .idle := by
  intro alone stopped
  simp [alone, stopped, run, laterStop, step, act, halt, leave, hidle, hhandle, worker, stop]

end Shift

end LogRelay.Worker
