import LogRelay.Host
import LogRelay.Relay

/-!
# Sessions

A session is the running part of a logger, from the moment its file is open and its name is claimed. A
caller on an ordinary thread writes to the sink at once. A caller on a real-time thread leaves its message
in a capture, whose worker relays it to the same sink. A second worker may flush the sink periodically.
-/

namespace LogRelay

/-- Bytes in the buffer of a captured message. -/
abbrev Session.messageSize : Nat := 2048

/-- Number of captured messages that can wait. -/
abbrev Session.slotCount : Nat := 1024

/-- The running part of a logger. -/
structure Session where
  /-- The sink that every message ends in. -/
  sink : Sink
  /-- The messages of real-time threads on their way to the sink. -/
  capture : Capture Session.messageSize Session.slotCount
  /-- The number of the thread that relays them. -/
  drainThread : Nat
  /-- The worker that flushes the sink. -/
  flusher : Option Worker
  /-- The claim on the name of the logger. -/
  claim : Claim

namespace Session

/-- Name of the worker that flushes the sink. -/
def flusherName : String := "rtlog-flush"

/-- Starts the workers of a session over an open sink. Their threads are numbered here, as they are spawned,
and not when they write their first JSON lines: a worker that never writes one takes a number too. -/
def start (period : Duration) (threshold : Severity) (options : SinkOptions) (claim : Claim)
    (state : Hosted Sink) : Hosted Session :=
  let sink := { state.item with threshold := threshold }
  let capture : Capture messageSize slotCount × Event :=
    Capture.start (by decide) (by decide) period threshold.toLevel.name
  let spawned := (state.host.report capture.2).spawn
  let session : Session := ⟨sink, capture.1, spawned.1.number, none, claim⟩
  if options.flushSeconds = 0 then ⟨session, spawned.2⟩
  else
    let flusher := Worker.start flusherName options.flushInterval
    ⟨{ session with flusher := some flusher.1 }, (spawned.2.report flusher.2).spawn.2⟩

/-- The sink of a session with what it works on. -/
def sinkState (state : Hosted Session) : SinkState :=
  ⟨state.item.sink, state.host.files, state.host.events⟩

/-- A session after a change to its sink. -/
def putSink (state : Hosted Session) (changed : SinkState) : Hosted Session :=
  ⟨{ state.item with sink := changed.sink },
    { state.host with files := changed.files, events := changed.events }⟩

@[simp]
theorem sinkState_putSink (state : Hosted Session) (changed : SinkState) :
    sinkState (putSink state changed) = changed := rfl

@[simp]
theorem putSink_sinkState (state : Hosted Session) : putSink state (sinkState state) = state := rfl

@[simp]
theorem putSink_putSink (state : Hosted Session) (first second : SinkState) :
    putSink (putSink state first) second = putSink state second := rfl

/-- Flushes the sink. -/
def flush (state : Hosted Session) : Hosted Session × Option IoFault :=
  let flushed := (sinkState state).flush
  (putSink state flushed.1, flushed.2)

/-- A session whose sink has been written to, and whether that broke down. A refusal is reported. -/
def conclude (state : Hosted Session) (written : SinkState × WriteResult) :
    Hosted Session × Bool :=
  let put := putSink state written.1
  match written.2 with
  | .done => (put, false)
  | .refused fault => (put.report (.recordFailed state.item.sink.name fault), false)
  | .brokeDown => (put, true)

/-- Writes a text to the sink at once, and says whether that broke down. -/
def writeText (thread : Nat) (severity : Severity) (text : String) (state : Hosted Session) :
    Hosted Session × Bool :=
  let record : Record := ⟨severity, text, .ofDuration state.host.clock.now⟩
  let ticked := { state with host := { state.host with clock := state.host.clock.tick } }
  conclude ticked ((sinkState ticked).write ⟨state.host.process, thread⟩ record)

/-- Writes a payload to the sink at once if the sink wants it, and says whether that broke down. A payload
that does not write itself to its end breaks down before the clock is read. -/
def write (thread : Nat) (severity : Severity) (payload : Payload) (state : Hosted Session) :
    Hosted Session × Bool :=
  if state.item.sink.wants severity then
    match payload.text? with
    | some text => writeText thread severity text state
    | none => (state, true)
  else (state, false)

/-- Leaves a payload in the capture, and says whether it broke down. -/
def enqueue (level : Level) (payload : Payload) (state : Hosted Session) :
    Hosted Session × Bool :=
  let logged := state.item.capture.log state.host.clock level payload
  (⟨{ state.item with capture := logged.1 }, { state.host with clock := logged.2.1 }⟩, logged.2.2)

/-- What the worker does with a captured message. Once the log is closed, messages are passed over. -/
def receiver (closed : Bool) (origin : Origin) : Receiver messageSize SinkState :=
  fun message state =>
    if closed then (state, false) else (Sink.outlet origin).relay message state

/-- Who writes the lines of captured messages. -/
def drainOrigin (state : Hosted Session) : Origin :=
  ⟨state.host.process, state.item.drainThread⟩

/-- One pass of the worker that relays captured messages. -/
def drain (closed : Bool) (state : Hosted Session) : Hosted Session :=
  let passed := state.item.capture.pass (receiver closed (drainOrigin state)) state.host.clock
    (sinkState state)
  putSink
    ⟨{ state.item with capture := passed.1 }, { state.host with clock := passed.2.1 }⟩ passed.2.2

/-- What the flushing worker does in one pass. -/
def flushJob : Worker.Job SinkState := fun state =>
  let flushed := state.flush
  match flushed.2 with
  | some fault => (flushed.1.report (.periodicFlushFailed state.sink.name fault), false)
  | none => (flushed.1, false)

/-- One pass of the worker that flushes the sink, if there is one. -/
def periodicFlush (state : Hosted Session) : Hosted Session :=
  match state.item.flusher with
  | none => state
  | some flusher =>
      let passed := flusher.pass flushJob (sinkState state)
      putSink (state.map fun session => { session with flusher := some passed.1 }) passed.2

/-- Stops the worker that relays captured messages, after a last pass. -/
def stopDrain (closed : Bool) (state : Hosted Session) : Hosted Session :=
  let stopped := state.item.capture.shutdown (receiver closed (drainOrigin state))
    state.host.clock (sinkState state)
  let put := putSink
    ⟨{ state.item with capture := stopped.1 }, { state.host with clock := stopped.2.1 }⟩
    stopped.2.2.1
  { put with host := put.host.reportAll stopped.2.2.2 }

/-- Stops the worker that flushes the sink, after a last pass. -/
def stopFlusher (state : Hosted Session) : Hosted Session :=
  match state.item.flusher with
  | none => state
  | some flusher =>
      let stopped := flusher.stop flushJob (sinkState state)
      let put :=
        putSink (state.map fun session => { session with flusher := some stopped.1 }) stopped.2.1
      { put with host := put.host.reportAll stopped.2.2 }

/-- Ends a session: the sink is dropped and the name is given back. -/
def discard (state : Hosted Session) : Host :=
  (putSink state (sinkState state).drop).host.release state.item.claim

end Session

end LogRelay
