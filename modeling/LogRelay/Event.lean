import LogRelay.Fault
import LogRelay.Severity
import LogRelay.Time.Duration

/-!
# Diagnostic events

What the library reports about itself: names claimed and released, workers started and stopped, files
rotated, records lost, loggers opened and closed. Every event has a class, a text and named values.
-/

namespace LogRelay

/-- How much attention an event deserves. -/
inductive Attention where
  | debug
  | info
  | warning
  | error
deriving DecidableEq, Repr

/-- Something the library reports about itself. -/
inductive Event where
  | nameTaken (logger : String)
  | replacingHolder (logger : String)
  | nameReleased (logger : String)
  | workerStarted (worker : String) (period : Duration)
  | workerStopped (worker : String)
  | workerBrokeDown (worker : String)
  | rotated (sink path : String)
  | rotationFailed (sink : String) (fault : IoFault)
  | flushOnDropFailed (sink : String) (fault : IoFault)
  | relayFailed (sink : String) (fault : IoFault)
  | recordFailed (sink : String) (fault : IoFault)
  | flushOnCloseFailed (sink : String) (fault : IoFault)
  | periodicFlushFailed (sink : String) (fault : IoFault)
  | loggerStarted (logger path : String) (threshold : Severity)
  | levelChanged (threshold : Severity)
  | logClosed (logger : String)
  | loggerShutDown (logger : String)
  | loggerInstalled (logger : String)
  | loggerRemoved (logger : String)
  | unknownFormat (setting value : String)
deriving DecidableEq, Repr

namespace Event

/-- The class of an event. -/
def attention : Event → Attention
  | nameTaken _ | rotationFailed _ _ | flushOnDropFailed _ _ | relayFailed _ _
  | recordFailed _ _ | flushOnCloseFailed _ _ | periodicFlushFailed _ _
  | unknownFormat _ _ => .warning
  | workerBrokeDown _ => .error
  | loggerStarted _ _ _ => .info
  | _ => .debug

/-- The text of an event. -/
def text : Event → String
  | nameTaken _ => "logger name already registered"
  | replacingHolder _ => "replacing registered logger"
  | nameReleased _ => "released logger name"
  | workerStarted _ _ => "drain worker started"
  | workerStopped _ => "drain worker stopped"
  | workerBrokeDown _ => "drain worker panicked; undelivered messages were lost"
  | rotated _ _ => "rotated log file"
  | rotationFailed _ _ => "log rotation failed"
  | flushOnDropFailed _ _ => "failed to flush log file on close"
  | relayFailed _ _ => "failed to write real-time log message"
  | recordFailed _ _ => "failed to write log record"
  | flushOnCloseFailed _ _ => "failed to flush log on close"
  | periodicFlushFailed _ _ => "periodic flush failed"
  | loggerStarted _ _ _ => "logger started"
  | levelChanged _ => "log level changed"
  | logClosed _ => "log closed"
  | loggerShutDown _ => "logger shut down"
  | loggerInstalled _ => "global logger installed"
  | loggerRemoved _ => "global logger removed"
  | unknownFormat setting _ => "ignoring unknown " ++ setting

/-- The named values of an event. -/
def fields : Event → List (String × String)
  | nameTaken logger | replacingHolder logger | nameReleased logger | logClosed logger
  | loggerShutDown logger | loggerInstalled logger | loggerRemoved logger =>
      [("logger", logger)]
  | workerStarted worker period =>
      [("worker", worker), ("period_ms", toString (period.millis % (1 <<< 64)))]
  | workerStopped worker | workerBrokeDown worker => [("worker", worker)]
  | rotated sink path => [("sink", sink), ("path", path)]
  | rotationFailed sink fault | flushOnDropFailed sink fault | relayFailed sink fault
  | recordFailed sink fault | flushOnCloseFailed sink fault | periodicFlushFailed sink fault =>
      [("sink", sink), ("error", fault.message)]
  | loggerStarted logger path threshold =>
      [("logger", logger), ("path", path), ("level", threshold.name)]
  | levelChanged threshold => [("level", threshold.name)]
  | unknownFormat _ value => [("value", value)]

end Event

end LogRelay
