import LogRelay.Config
import LogRelay.Stream

/-!
# Rotating sinks

A sink appends the lines of records to a file through a stream and counts the bytes it has taken. A line
that would make the file too big makes it rotate first: every numbered file moves up by one, the file
itself becomes number one, and an empty file takes its place. When rotation fails, the sink goes on with
the file it has. Lines of errors are flushed at once.
-/

namespace LogRelay

/-- A sink that writes lines to a rotating file. -/
structure Sink where
  /-- The logger named in the lines. -/
  name : String
  /-- Path of the file. -/
  path : String
  /-- How lines are written. -/
  format : LogFormat
  /-- Size that the file may not exceed. -/
  maxSize : Nat
  /-- Number of rotated files kept beside it. -/
  maxFiles : Nat
  /-- The least severe records that are wanted. -/
  threshold : Severity
  /-- The open file. -/
  stream : Stream
  /-- Number of bytes in the file and held back. -/
  size : Nat
deriving DecidableEq, Repr

/-- What a write to a sink came to. -/
inductive WriteResult where
  | done
  | refused (fault : IoFault)
  | brokeDown
deriving DecidableEq, Repr

/-- A sink with the tree it works on and the events it has reported. -/
structure SinkState where
  /-- The sink. -/
  sink : Sink
  /-- The tree. -/
  files : FileTree
  /-- The events, in order. -/
  events : Array Event

namespace Sink

/-- Opens the file of a sink at its end, making the directories above it. -/
def start (name path : String) (format : LogFormat) (maxSize maxFiles : Nat) (files : FileTree) :
    FileTree × Except IoFault Sink :=
  let directory := Path.directory path
  let made := if directory = "" then (files, none) else files.makeDirectories directory.toList
  match made.2 with
  | some fault => (made.1, .error fault)
  | none =>
      match made.1.openAppend path.toList with
      | .error fault => (made.1, .error fault)
      | .ok (handle, opened) =>
          (opened, .ok ⟨name, path, format, maxSize, maxFiles, .debug, .ofHandle handle,
            opened.size handle⟩)

/-- Whether records of a severity are wanted. -/
def wants (sink : Sink) (severity : Severity) : Bool := severity.reaches sink.threshold

/-- The path of a rotated file. -/
def rotatedPath (sink : Sink) (number : Nat) : List Char := Path.numbered sink.path.toList number

/-- Moves the file with a number up by one, replacing the file there. -/
def moveUp (sink : Sink) (number : Nat) (files : FileTree) : FileTree.Attempt :=
  let source := sink.rotatedPath number
  let target := sink.rotatedPath (number + 1)
  if files.present source then
    let cleared :=
      if files.present target then files.attempt fun tree => tree.removeFile target
      else (files, none)
    cleared.andThen fun cleared => cleared.attempt fun tree => tree.rename source target
  else (files, none)

/-- Moves the files with numbers below the given one up, the greatest number first. -/
def moveAllUp (sink : Sink) : Nat → FileTree → FileTree.Attempt
  | 0, files => (files, none)
  | number + 1, files => (sink.moveUp number files).andThen (moveAllUp sink number)

/-- Rotates: the bytes held back are written, the files move up, and an empty file is opened. -/
def rotate (sink : Sink) (files : FileTree) : Applied Sink :=
  let flushed := sink.stream.flush files
  let kept := { sink with stream := flushed.state }
  match flushed.fault with
  | some fault => ⟨kept, flushed.files, some fault⟩
  | none =>
      let moved := sink.moveAllUp sink.maxFiles flushed.files
      match moved.2 with
      | some fault => ⟨kept, moved.1, some fault⟩
      | none =>
          match moved.1.create sink.path.toList with
          | .error fault => ⟨kept, moved.1, some fault⟩
          | .ok (handle, created) =>
              ⟨{ sink with stream := .ofHandle handle, size := 0 }, created, none⟩

end Sink

namespace SinkState

/-- The state with one more event reported. -/
def report (event : Event) (state : SinkState) : SinkState :=
  { state with events := state.events.push event }

/-- Writes the bytes held back to the file. -/
def flush (state : SinkState) : SinkState × Option IoFault :=
  let flushed := state.sink.stream.flush state.files
  ({ state with sink := { state.sink with stream := flushed.state }, files := flushed.files },
    flushed.fault)

/-- Rotates, and reports how it went. -/
def rotate (state : SinkState) : SinkState :=
  let rotated := state.sink.rotate state.files
  let changed := { state with sink := rotated.state, files := rotated.files }
  match rotated.fault with
  | some fault => changed.report (.rotationFailed state.sink.name fault)
  | none => changed.report (.rotated state.sink.name state.sink.path)

/-- Whether taking some bytes would make the file too big. -/
def isFull (state : SinkState) (count : Nat) : Bool :=
  0 < state.sink.size && state.sink.maxSize < state.sink.size + count

/-- Takes the bytes of a line. -/
def append (state : SinkState) (bytes : Bytes) : SinkState × Option IoFault :=
  let appended := state.sink.stream.append state.files bytes
  let sink := { state.sink with stream := appended.state }
  match appended.fault with
  | some fault => ({ state with sink := sink, files := appended.files }, some fault)
  | none =>
      ({ state with
          sink := { sink with size := sink.size + bytes.length }, files := appended.files }, none)

/-- Writes the bytes of a line with a severity. -/
def writeLine (severity : Severity) (bytes : Bytes) (state : SinkState) :
    SinkState × Option IoFault :=
  let ready := if state.isFull bytes.length then state.rotate else state
  let appended := ready.append bytes
  match appended.2 with
  | some fault => (appended.1, some fault)
  | none => if severity.reaches .error then appended.1.flush else (appended.1, none)

/-- Writes a record. A record that has no line breaks down before anything is touched. -/
def write (origin : Origin) (record : Record) (state : SinkState) : SinkState × WriteResult :=
  match record.line? state.sink.format state.sink.name origin with
  | none => (state, .brokeDown)
  | some line =>
      let written := writeLine record.severity (Utf8.encode line) state
      match written.2 with
      | some fault => (written.1, .refused fault)
      | none => (written.1, .done)

/-- Drops the sink: the bytes held back are written, and lost if that fails. -/
def drop (state : SinkState) : SinkState :=
  let flushed := state.flush
  match flushed.2 with
  | some fault => flushed.1.report (.flushOnDropFailed state.sink.name fault)
  | none => flushed.1

end SinkState

end LogRelay
