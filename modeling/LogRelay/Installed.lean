import LogRelay.Recorder

/-!
# The installed logger

A process has one slot for a logger that can be reached from everywhere. Installing a logger first removes
the one in the slot, which shuts it down; whoever made a logger still holds a handle to it, but a logger
that was removed does nothing more. Handles are the numbers of loggers in the order of their making.
-/

namespace LogRelay

/-- All loggers that were ever installed, and the slot. -/
structure Installed (ρ : Type) where
  /-- The loggers, in the order of their making. -/
  loggers : Array ρ
  /-- The handle of the logger in the slot. -/
  slot : Option Nat

namespace Installed

variable {ρ : Type}

/-- The state before any logger was installed. -/
def vacant : Installed ρ := ⟨#[], none⟩

/-- The logger behind a handle. -/
def logger? (installed : Installed ρ) (handle : Nat) : Option ρ := installed.loggers[handle]?

/-- The handle of the logger in the slot. -/
def current (installed : Installed ρ) : Except LogError Nat :=
  match installed.slot with
  | some handle => .ok handle
  | none => .error .notInitialized

/-- Does something to the logger behind a handle, if there is one. -/
def update {τ : Type} (handle : Nat) (change : Hosted ρ → Hosted ρ × τ)
    (state : Hosted (Installed ρ)) : Hosted (Installed ρ) × Option τ :=
  match state.item.logger? handle with
  | none => (state, none)
  | some logger =>
      let done := change ⟨logger, state.host⟩
      (⟨{ state.item with loggers := state.item.loggers.setIfInBounds handle done.1.item },
        done.1.host⟩, some done.2)

/-- The text before a message that names where it comes from. -/
def mark (source : String) : Segment := ⟨[.text "[", .text source, .text "] "], false⟩

section Slot

variable [Recorder ρ]

/-- Shuts a logger down, and reports that it was removed from the slot. -/
def retire (thread : Thread) (state : Hosted ρ) : Hosted ρ × Unit :=
  let stopped := Recorder.shutdown thread state
  (stopped.report (.loggerRemoved (Recorder.options stopped.item).name), ())

/-- Empties the slot. -/
def remove (thread : Thread) (state : Hosted (Installed ρ)) : Hosted (Installed ρ) :=
  match state.item.slot with
  | none => state
  | some handle =>
      (update handle (retire thread)
        (state.map fun installed => { installed with slot := none })).1

/-- Makes a logger with the settings of a configuration and puts it into the slot. When it cannot be started
the slot stays empty. -/
def install (thread : Thread) (config : LoggerConfig) (state : Hosted (Installed ρ)) :
    Hosted (Installed ρ) × Except LogError Nat :=
  let removed := remove thread state
  let made : Hosted ρ × Except LogError Unit := Recorder.ofConfig thread config removed.host
  match made.2 with
  | .error error => (⟨removed.item, made.1.host⟩, .error error)
  | .ok () =>
      let handle := removed.item.loggers.size
      let filled : Hosted (Installed ρ) :=
        ⟨⟨removed.item.loggers.push made.1.item, some handle⟩, made.1.host⟩
      (filled.report (.loggerInstalled (Recorder.options made.1.item).name), .ok handle)

/-- Logs a message through the slot under the name of its source, and says whether it broke down. Nothing
happens while the slot is empty. -/
def log (thread : Thread) (source : String) (severity : Severity) (payload : Payload)
    (state : Hosted (Installed ρ)) : Hosted (Installed ρ) × Bool :=
  match state.item.slot with
  | none => (state, false)
  | some handle =>
      let logged := update handle (Recorder.log thread severity (mark source :: payload)) state
      (logged.1, logged.2.getD false)

end Slot

end Installed

end LogRelay
