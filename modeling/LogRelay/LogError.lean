import LogRelay.Fault

/-!
# Errors of setting up

Setting up a logger can fail for three reasons: the level name is unknown, the logger cannot be
started, or no logger is installed. Each error has a stable code, a short text and a full text.
-/

namespace LogRelay

/-- Why a logger could not be started. -/
inductive StartFailure where
  | duplicateName
  | file (fault : IoFault)
  | thread (fault : IoFault)
deriving DecidableEq, Repr

namespace StartFailure

/-- The words in which the reason is reported. -/
def message : StartFailure → String
  | duplicateName => "a logger with this name is already registered"
  | file fault => "could not open log file: " ++ fault.message
  | thread fault => "could not spawn worker thread: " ++ fault.message

/-- The fault underneath, if there is one. -/
def cause? : StartFailure → Option IoFault
  | duplicateName => none
  | file fault => some fault
  | thread fault => some fault

end StartFailure

/-- Why setting up or finding a logger failed. -/
inductive LogError where
  | invalidLevel (text : String)
  | failedToStart (logger : String) (reason : StartFailure)
  | notInitialized
deriving DecidableEq, Repr

namespace LogError

/-- Stable name of the kind of error. -/
def code : LogError → String
  | invalidLevel _ => "INVALID_LOG_LEVEL"
  | failedToStart _ _ => "FAILED_TO_START_LOGGER"
  | notInitialized => "LOGGER_NOT_INITIALIZED"

/-- Short description without the details. -/
def summary : LogError → String
  | invalidLevel _ => "Invalid log level"
  | failedToStart _ _ => "Failed to initialize logger instance"
  | notInitialized => "Logger is not initialized"

/-- Full description. -/
def message : LogError → String
  | invalidLevel text => "Invalid log level '" ++ text ++ "'"
  | failedToStart logger reason =>
      "Failed to start logger '" ++ logger ++ "': " ++ reason.message
  | notInitialized => "Logger is not initialized"

/-- The reason behind a failed start. -/
def reason? : LogError → Option StartFailure
  | failedToStart _ reason => some reason
  | _ => none

end LogError

end LogRelay
