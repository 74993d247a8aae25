import LogRelay.Config
import LogRelay.LogError
import LogRelay.Text.Quoted

/-!
# Muted loggers

A muted logger takes the place of a logger where logging is switched off. It remembers its settings and
does nothing else: no name is claimed, no file is opened, and no setting is refused.
-/

namespace LogRelay

/-- A logger that logs nothing. -/
structure MutedLogger where
  /-- The level name, as given. -/
  level : String
  /-- How lines would be written. -/
  format : LogFormat
  /-- The settings given last. -/
  options : SinkOptions
deriving DecidableEq, Repr

namespace MutedLogger

/-- A muted logger that was never given settings. -/
def idle (level : String) (format : LogFormat) : MutedLogger := ⟨level, format, .standard⟩

/-- Remembers settings. -/
def remember (logger : MutedLogger) (options : SinkOptions) : MutedLogger :=
  { logger with options := options }

/-- Debugging text of a muted logger. -/
def debugText (logger : MutedLogger) : String :=
  "BridgeLogger \x7b name: " ++ Quoted.text logger.options.name ++ ", disabled: true, .. \x7d"

end MutedLogger

end LogRelay
