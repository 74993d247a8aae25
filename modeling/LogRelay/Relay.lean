import LogRelay.Capture
import LogRelay.Sink

/-!
# Relaying messages

A captured message becomes a record with the severity of its level and the time at which it was
captured. It goes to a sink that wants it; a refusal is reported and otherwise passed over. A time that
the calendar cannot count breaks the relay down.
-/

namespace LogRelay

/-- The moment of a span since 1970, if its seconds fit a signed word. -/
def Instant.ofDuration? (span : Duration) : Option Instant :=
  if span.seconds < 1 <<< 63 then some (.ofDuration span) else none

/-- When a message was captured. -/
def Message.time? {size : Nat} (message : Message size) : Option Instant :=
  Instant.ofDuration? message.timestamp

/-- A sink as the relay sees it. -/
structure Outlet (σ : Type) where
  /-- The name of the sink. -/
  name : σ → String
  /-- The least severe records that it wants. -/
  threshold : σ → Severity
  /-- Writes a record. -/
  write : Record → σ → σ × WriteResult
  /-- Reports an event. -/
  report : Event → σ → σ

/-- The relay of messages to a sink. -/
def Outlet.relay {σ : Type} {size : Nat} (outlet : Outlet σ) : Receiver size σ :=
  fun message state =>
    let severity := message.level.toSeverity
    if severity.reaches (outlet.threshold state) then
      match message.time? with
      | none => (state, true)
      | some time =>
          let written := outlet.write ⟨severity, message.text, time⟩ state
          match written.2 with
          | .done => (written.1, false)
          | .refused fault =>
              (outlet.report (.relayFailed (outlet.name written.1) fault) written.1, false)
          | .brokeDown => (written.1, true)
    else (state, false)

/-- A rotating sink as the relay sees it, with the thread that writes to it. -/
def Sink.outlet (origin : Origin) : Outlet SinkState where
  name := fun state => state.sink.name
  threshold := fun state => state.sink.threshold
  write := SinkState.write origin
  report := SinkState.report

end LogRelay
