import LogRelay.LogError
import LogRelay.Session

/-!
# Loggers

A logger is made idle. Starting it claims its name, opens its file and starts a session; closing it flushes
the file and refuses every later message; shutting it down delivers what waits, closes it and ends the
session. A logger can be started again, which shuts it down first.

The threshold is kept as the text that was given. Changing it to an unknown name fails, but leaves the
capture of a running logger at `info`.
-/

namespace LogRelay

/-- A logger that callers on all threads share. -/
structure Logger where
  /-- Name of the least severe level that is recorded, as given. -/
  level : String
  /-- How lines are written. -/
  format : LogFormat
  /-- Time between two passes of the worker that relays captured messages. -/
  period : Duration
  /-- How a caller is found to be real-time. -/
  probe : Probe
  /-- Settings of the session that was started last. -/
  options : SinkOptions
  /-- The running part. -/
  session : Option Session
  /-- Whether messages are refused because the log was closed. -/
  closed : Bool

namespace Logger

/-- A logger that was never started. -/
def idle (level : String) (format : LogFormat) (period : Duration) (probe : Probe) : Logger :=
  ⟨level, format, period, probe, .standard, none, false⟩

/-- Whether a session runs. -/
def isRunning (logger : Logger) : Bool := logger.session.isSome

/-- Number of captured messages refused since the last report. -/
def dropped (logger : Logger) : Nat :=
  match logger.session with
  | some session => session.capture.dropped
  | none => 0

/-- The first text of a session. -/
def greeting (format : LogFormat) (name : String) : String :=
  match format with
  | .text => "Started logger: " ++ name ++ "."
  | .json => "\x7b \"status\": \"Started\" \x7d"

/-- The last text of a session, if it has one. -/
def farewell? : LogFormat → Option String
  | .text => none
  | .json => some "\x7b \"status\": \"Finished\" \x7d"

/-- A logger in a session after something has been done to the session. -/
def inSession {ρ : Type} (logger : Logger) (done : Hosted Session × ρ) : Hosted Logger × ρ :=
  (done.1.map fun session => { logger with session := some session }, done.2)

/-- Takes a message, and says whether it broke down. -/
def log (thread : Thread) (severity : Severity) (payload : Payload) (state : Hosted Logger) :
    Hosted Logger × Bool :=
  if state.item.closed then (state, false)
  else
    match state.item.session with
    | none => (state, false)
    | some session =>
        state.item.inSession <|
          if state.item.probe.ask thread.flag then
            Session.enqueue severity.toLevel payload ⟨session, state.host⟩
          else Session.write thread.number severity payload ⟨session, state.host⟩

/-- Closes the log of a session: the last text is written and the file is flushed. -/
def finish (thread : Thread) (format : LogFormat) (state : Hosted Session) : Hosted Session :=
  let said :=
    match farewell? format with
    | some text => (Session.write thread.number .info (Payload.ofText text) state).1
    | none => state
  let flushed := Session.flush said
  let told :=
    match flushed.2 with
    | some fault => flushed.1.report (.flushOnCloseFailed state.item.sink.name fault)
    | none => flushed.1
  told.report (.logClosed state.item.sink.name)

/-- Closes the log. Closing it again does nothing. -/
def close (thread : Thread) (state : Hosted Logger) : Hosted Logger :=
  if state.item.closed then state
  else
    match state.item.session with
    | none => state
    | some session =>
        (finish thread state.item.format ⟨session, state.host⟩).map fun session =>
          { state.item with session := some session, closed := true }

/-- Ends the session: what waits is relayed, the workers stop, the log is closed, and the file and the name
are given up. -/
def shutdown (thread : Thread) (state : Hosted Logger) : Hosted Logger :=
  match state.item.session with
  | none => state
  | some session =>
      let stopped := Session.stopFlusher
        (Session.stopDrain state.item.closed ⟨session, state.host⟩)
      let finished :=
        if state.item.closed then stopped else finish thread state.item.format stopped
      let told := finished.report (.loggerShutDown session.sink.name)
      ⟨{ state.item with session := none, closed := true }, Session.discard told⟩

/-- Starts a session over an open sink, and writes its first text. -/
def startSession (thread : Thread) (threshold : Severity) (options : SinkOptions) (claim : Claim)
    (logger : Logger) (sink : Hosted Sink) : Hosted Logger :=
  let started := Session.start logger.period threshold options claim sink
  let text := greeting logger.format options.name
  let greeted := (Session.write thread.number .info (Payload.ofText text) started).1
  let running := greeted.map fun session =>
    { logger with options := options, session := some session, closed := false }
  running.report (.loggerStarted options.name options.path threshold)

/-- Opens the file of a logger whose name is claimed, and starts the session. The name is given back when
the file cannot be opened. -/
def openFile (thread : Thread) (threshold : Severity) (options : SinkOptions) (claim : Claim)
    (state : Hosted Logger) : Hosted Logger × Except LogError Unit :=
  let opened := Sink.start options.name options.path state.item.format options.maxSize
    options.maxFiles state.host.files
  let host := { state.host with files := opened.1 }
  match opened.2 with
  | .ok sink =>
      (startSession thread threshold options claim state.item ⟨sink, host⟩, .ok ())
  | .error fault =>
      (⟨state.item, host.release claim⟩, .error (.failedToStart options.name (.file fault)))

/-- Starts a logger, after shutting it down. -/
def start (thread : Thread) (options : SinkOptions) (state : Hosted Logger) :
    Hosted Logger × Except LogError Unit :=
  let idle := shutdown thread state
  match Severity.parse? idle.item.level with
  | none => (idle, .error (.invalidLevel idle.item.level))
  | some threshold =>
      let claimed := idle.host.claim options.name options.replace
      let told : Hosted Logger := ⟨idle.item, claimed.2⟩
      match claimed.1 with
      | none => (told, .error (.failedToStart options.name .duplicateName))
      | some claim => openFile thread threshold options claim told

/-- Changes the threshold. -/
def setLevel (text : String) (state : Hosted Logger) : Hosted Logger × Except LogError Unit :=
  match Severity.parse? text with
  | none =>
      let changed := state.map fun logger =>
        { logger with
          session := logger.session.map fun session =>
            { session with capture := session.capture.setLevel text } }
      (changed, .error (.invalidLevel text))
  | some threshold =>
      let changed := state.map fun logger =>
        { logger with
          level := text
          session := logger.session.map fun session =>
            { session with
              capture := session.capture.setLevel threshold.toLevel.name
              sink := { session.sink with threshold := threshold } } }
      (changed.report (.levelChanged threshold), .ok ())

/-- One pass of the worker that relays captured messages. -/
def drain (state : Hosted Logger) : Hosted Logger :=
  match state.item.session with
  | none => state
  | some session =>
      (Session.drain state.item.closed ⟨session, state.host⟩).map fun session =>
        { state.item with session := some session }

/-- One pass of the worker that flushes the file. -/
def periodicFlush (state : Hosted Logger) : Hosted Logger :=
  match state.item.session with
  | none => state
  | some session =>
      (Session.periodicFlush ⟨session, state.host⟩).map fun session =>
        { state.item with session := some session }

/-- Debugging text of a logger. -/
def debugText (logger : Logger) : String :=
  "BridgeLogger \x7b name: " ++ Quoted.text logger.options.name ++ ", path: " ++
    Quoted.path logger.options.path ++ ", format: " ++ logger.format.label ++ ", closed: " ++
    toString logger.closed ++ ", .. \x7d"

end Logger

end LogRelay
