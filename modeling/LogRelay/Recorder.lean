import LogRelay.Logger
import LogRelay.Logger.Muted

/-!
# Recorders

A recorder is whatever can stand in for a logger: a logger, or a muted one where logging is switched off.
Both answer the same requests. Whoever gives a recorder up shuts it down.
-/

namespace LogRelay

/-- What can be asked of a logger. -/
class Recorder (ρ : Type) where
  /-- One that was never started. -/
  idle : String → LogFormat → Duration → Probe → ρ
  /-- Starts it with settings. -/
  start : Thread → SinkOptions → Hosted ρ → Hosted ρ × Except LogError Unit
  /-- Takes a message, and says whether it broke down. -/
  log : Thread → Severity → Payload → Hosted ρ → Hosted ρ × Bool
  /-- Changes the threshold. -/
  setLevel : String → Hosted ρ → Hosted ρ × Except LogError Unit
  /-- Closes the log. -/
  close : Thread → Hosted ρ → Hosted ρ
  /-- Ends the session. -/
  shutdown : Thread → Hosted ρ → Hosted ρ
  /-- The level name, as given. -/
  level : ρ → String
  /-- How lines are written. -/
  format : ρ → LogFormat
  /-- The settings. -/
  options : ρ → SinkOptions
  /-- Whether a session runs. -/
  isRunning : ρ → Bool
  /-- Whether the log was closed. -/
  isClosed : ρ → Bool
  /-- Number of captured messages refused since the last report. -/
  dropped : ρ → Nat
  /-- Debugging text. -/
  debugText : ρ → String

instance : Recorder Logger where
  idle := Logger.idle
  start := Logger.start
  log := Logger.log
  setLevel := Logger.setLevel
  close := Logger.close
  shutdown := Logger.shutdown
  level := Logger.level
  format := Logger.format
  options := Logger.options
  isRunning := Logger.isRunning
  isClosed := Logger.closed
  dropped := Logger.dropped
  debugText := Logger.debugText

instance : Recorder MutedLogger where
  idle := fun level format _ _ => .idle level format
  start := fun _ options state => (state.map fun logger => logger.remember options, .ok ())
  log := fun _ _ _ state => (state, false)
  setLevel := fun _ state => (state, .ok ())
  close := fun _ state => state
  shutdown := fun _ state => state
  level := MutedLogger.level
  format := MutedLogger.format
  options := MutedLogger.options
  isRunning := fun _ => false
  isClosed := fun _ => false
  dropped := fun _ => 0
  debugText := MutedLogger.debugText

/-- Makes and starts a recorder with the settings of a configuration. -/
def Recorder.ofConfig {ρ : Type} [Recorder ρ] (thread : Thread) (config : LoggerConfig)
    (host : Host) : Hosted ρ × Except LogError Unit :=
  Recorder.start thread config.sink
    ⟨Recorder.idle config.level config.format config.pollPeriod .threadFlag, host⟩

end LogRelay
