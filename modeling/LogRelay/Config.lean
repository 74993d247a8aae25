import LogRelay.Event
import LogRelay.Record

/-!
# Configuration

Options say where a sink writes, under which name, and when it rotates; a configuration adds the level
name, the line format and the period of the worker. Named settings of the environment are laid over a
configuration.
-/

namespace LogRelay

/-- Settings of a sink. -/
structure SinkOptions where
  /-- Path of the log file. -/
  path : String
  /-- Name of the logger. -/
  name : String
  /-- Seconds between periodic flushes; zero means that there are none. -/
  flushSeconds : Nat
  /-- Whether to take the name over from its holder. -/
  replace : Bool
  /-- Number of rotated files kept beside the active one. -/
  maxFiles : Nat
  /-- Size that the active file may not exceed. -/
  maxSize : Nat
deriving DecidableEq, Repr

namespace SinkOptions

/-- Settings used where nothing else is said. -/
def standard : SinkOptions := ⟨"log.txt", "rtlog", 0, false, 1, 10000000⟩

/-- Standard settings for a path and a name. -/
def ofPath (path name : String) : SinkOptions := { standard with path := path, name := name }

/-- Settings that flush after every interval, which counts in whole seconds. -/
def withFlushInterval (options : SinkOptions) (interval : Duration) : SinkOptions :=
  { options with flushSeconds := interval.seconds }

/-- Settings that take a held name over, or not. -/
def withReplace (options : SinkOptions) (replace : Bool) : SinkOptions :=
  { options with replace := replace }

/-- Settings that keep a number of rotated files. -/
def withMaxFiles (options : SinkOptions) (count : Nat) : SinkOptions :=
  { options with maxFiles := count }

/-- Settings that rotate at a size. -/
def withMaxSize (options : SinkOptions) (bytes : Nat) : SinkOptions :=
  { options with maxSize := bytes }

/-- Time between periodic flushes. -/
def flushInterval (options : SinkOptions) : Duration := Duration.ofSeconds options.flushSeconds

end SinkOptions

/-- Settings of a logger. -/
structure LoggerConfig where
  /-- Name of the least severe level that is recorded. -/
  level : String
  /-- How lines are written. -/
  format : LogFormat
  /-- Milliseconds between two passes of the worker. -/
  pollMillis : Nat
  /-- Settings of the sink. -/
  sink : SinkOptions
deriving DecidableEq, Repr

namespace LoggerConfig

/-- Settings used where nothing else is said. -/
def standard : LoggerConfig := ⟨"info", .text, 50, .standard⟩

/-- Time between two passes of the worker. -/
def pollPeriod (config : LoggerConfig) : Duration := Duration.ofMillis config.pollMillis

/-- Setting that names the level. -/
def levelSetting : String := "RTLOG_LEVEL"

/-- Setting that names the log file. -/
def fileSetting : String := "RTLOG_FILE"

/-- Setting that names the logger. -/
def nameSetting : String := "RTLOG_NAME"

/-- Setting that names the format. -/
def formatSetting : String := "RTLOG_FORMAT"

/-- Lays a format over a configuration. ASCII case is ignored; an unknown format is reported. -/
def overlayFormat (config : LoggerConfig) (text : String) : LoggerConfig × List Event :=
  let name := text.toLower
  match LogFormat.ofName? name with
  | some format => ({ config with format := format }, [])
  | none => (config, [.unknownFormat formatSetting name])

/-- Lays the settings that are present over a configuration. -/
def overlay (config : LoggerConfig) (setting : String → Option String) :
    LoggerConfig × List Event :=
  let sink : SinkOptions := { config.sink with
    path := (setting fileSetting).getD config.sink.path
    name := (setting nameSetting).getD config.sink.name }
  let changed : LoggerConfig := { config with
    level := (setting levelSetting).getD config.level
    sink := sink }
  match setting formatSetting with
  | some text => changed.overlayFormat text
  | none => (changed, [])

end LoggerConfig

end LogRelay
