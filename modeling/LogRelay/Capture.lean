import LogRelay.Message
import LogRelay.Queue
import LogRelay.Worker

/-!
# Capturing messages

A capture takes messages from a real-time thread and hands them on from a worker thread. A message
below the threshold costs nothing, not even a clock reading; any other is stamped and written straight
into the next free slot of the queue. Each pass of the worker hands on everything that waits, oldest
first, and then reports how many messages were refused since the last report.
-/

namespace LogRelay

/-- A filter, a queue of messages and the worker that empties it. -/
structure Capture (size capacity : Nat) where
  /-- The messages waiting. -/
  queue : Queue (Message size) capacity
  /-- The least urgent level that is captured. -/
  threshold : Level
  /-- The worker that hands messages on. -/
  worker : Worker

/-- What a pass of the worker changes: the queue, the clock, and whatever receives the messages. -/
structure Flow (size capacity : Nat) (σ : Type) where
  /-- The messages waiting. -/
  queue : Queue (Message size) capacity
  /-- The clock that stamps messages. -/
  clock : Clock
  /-- The state of the receiver. -/
  receiver : σ

/-- A receiver: it takes a message and says whether it broke down over it. -/
abbrev Receiver (size : Nat) (σ : Type) := Message size → σ → σ × Bool

namespace Flow

variable {size capacity : Nat} {σ : Type}

/-- Hands on at most the given number of waiting messages, oldest first. A message over which the
receiver breaks down stays in the queue. -/
def deliver (receive : Receiver size σ) :
    Nat → Flow size capacity σ → Flow size capacity σ × Bool
  | 0, flow => (flow, false)
  | limit + 1, flow =>
      match flow.queue.startPop with
      | (none, refusing) => ({ flow with queue := refusing }, false)
      | (some index, started) =>
          let received := receive (started.peek index) flow.receiver
          if received.2 then
            ({ flow with queue := started.keep, receiver := received.1 }, true)
          else
            deliver receive limit
              { flow with queue := started.release index, receiver := received.1 }

/-- What is reported about refused messages. -/
def dropReport (count : UInt32) : Payload :=
  [⟨[.text "Dropped ", .text (toString count.toNat), .text " real-time log messages"], false⟩]

/-- Hands the receiver a warning about the messages refused since the last report, if there are any. -/
def reportDrops (receive : Receiver size σ) (flow : Flow size capacity σ) :
    Flow size capacity σ × Bool :=
  let taken := flow.queue.takeDropped
  if taken.1 = 0 then ({ flow with queue := taken.2 }, false)
  else
    let blank := Message.blank (flow.queue.peek 0).size_pos
    let report := (blank.set .warning flow.clock.now (dropReport taken.1)).1
    let received := receive report flow.receiver
    (⟨taken.2, flow.clock.tick, received.1⟩, received.2)

/-- One pass: everything that waits, then the report. -/
def drain (receive : Receiver size σ) : Worker.Job (Flow size capacity σ) := fun flow =>
  let delivered := flow.deliver receive flow.queue.length.toNat
  if delivered.2 then delivered else reportDrops receive delivered.1

end Flow

namespace Capture

variable {size capacity : Nat} {σ : Type}

/-- Name of the worker that hands messages on. -/
def workerName : String := "rtlog-drain"

/-- An empty capture with a started worker. -/
def start (hcapacity : IsCapacity capacity) (hsize : 0 < size) (period : Duration)
    (levelText : String) : Capture size capacity × Event :=
  let worker := Worker.start workerName period
  (⟨Queue.new hcapacity (Message.blank hsize), Level.parseOrInfo levelText, worker.1⟩, worker.2)

/-- An empty capture with a started worker, unless a slot or the queue has an impossible size. -/
def start? (size capacity : Nat) (period : Duration) (levelText : String) :
    Except String (Capture size capacity × Event) :=
  if hcapacity : IsCapacity capacity then
    if hsize : 0 < size then .ok (start hcapacity hsize period levelText)
    else .error Message.noRoomComplaint
  else .error Queue.capacityComplaint

/-- Sets the threshold; an unknown name means `info`. -/
def setLevel (capture : Capture size capacity) (levelText : String) : Capture size capacity :=
  { capture with threshold := Level.parseOrInfo levelText }

/-- Whether messages of a level are captured. -/
def isEnabled (capture : Capture size capacity) (level : Level) : Bool :=
  level.passes capture.threshold

/-- Captures a message, and says whether its payload broke down. -/
def log (capture : Capture size capacity) (clock : Clock) (level : Level) (payload : Payload) :
    Capture size capacity × Clock × Bool :=
  if capture.isEnabled level then
    let pushed := capture.queue.pushWith fun slot => slot.set level clock.now payload
    ({ capture with queue := pushed.2 }, clock.tick, pushed.1 = .brokeDown ())
  else (capture, clock, false)

/-- Number of messages waiting. -/
def pending (capture : Capture size capacity) : Nat := capture.queue.length.toNat

/-- Number of messages refused since the last report. -/
def dropped (capture : Capture size capacity) : Nat := capture.queue.dropped.toNat

/-- One pass of the worker. -/
def pass (receive : Receiver size σ) (capture : Capture size capacity) (clock : Clock)
    (receiver : σ) : Capture size capacity × Clock × σ :=
  let done := capture.worker.pass (Flow.drain receive) ⟨capture.queue, clock, receiver⟩
  ({ capture with queue := done.2.queue, worker := done.1 }, done.2.clock, done.2.receiver)

/-- Stops the worker after a last pass. Messages captured later are never handed on. -/
def shutdown (receive : Receiver size σ) (capture : Capture size capacity) (clock : Clock)
    (receiver : σ) : Capture size capacity × Clock × σ × List Event :=
  let done := capture.worker.stop (Flow.drain receive) ⟨capture.queue, clock, receiver⟩
  ({ capture with queue := done.2.1.queue, worker := done.1 }, done.2.1.clock,
    done.2.1.receiver, done.2.2)

end Capture

end LogRelay
