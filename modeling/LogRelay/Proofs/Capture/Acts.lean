import LogRelay.Proofs.Capture.Delivery

/-!
# What can be done with a capture

Apart from the steps of its use, a capture is shut down, and can be used after that. An act tells whoever does
it something; what else there is to see is the state of the receiver, what waits, what was refused and whether
the worker runs.
-/

namespace LogRelay

/-- What can be done with a capture. -/
inductive CaptureAct where
  | step (step : CaptureStep)
  | shutdown
deriving DecidableEq, Repr

/-- What an act tells whoever does it. -/
inductive CaptureAnswer where
  | done
  | logged (brokeDown : Bool)
  | stopped (events : List Event)
deriving DecidableEq, Repr

/-- What there is to see of a capture. -/
structure CaptureLook (σ : Type) where
  /-- The state of the receiver. -/
  receiver : σ
  /-- Number of messages waiting. -/
  pending : Nat
  /-- Number of messages refused since the last report. -/
  dropped : Nat
  /-- The least urgent level that is captured. -/
  threshold : Level
  /-- Whether the worker runs. -/
  isRunning : Bool

variable {size capacity : Nat} {σ : Type}

namespace CaptureAct

/-- The state after an act. -/
def apply (receive : Receiver size σ) :
    CaptureAct → CaptureState size capacity σ → CaptureState size capacity σ
  | step next, state => state.step receive next
  | shutdown, state => state.shutdown receive

/-- What an act tells. -/
def answer (receive : Receiver size σ) : CaptureAct → CaptureState size capacity σ → CaptureAnswer
  | step (.log level payload), state =>
      .logged (state.capture.log state.clock level payload).2.2
  | step _, _ => .done
  | shutdown, state =>
      .stopped (state.capture.shutdown receive state.clock state.receiver).2.2.2

/-- Whether an act asks the worker for a pass. -/
def asksPass : CaptureAct → Bool
  | step .pass => true
  | step (.log _ _) => false
  | step (.setLevel _) => false
  | shutdown => true

/-- What an act puts into the queue, as a reader gets it, if the queue takes something. -/
def accepts? : CaptureAct → CaptureState size capacity σ → Option View
  | step (.log level payload), state => state.capture.accepts? state.clock level payload
  | step (.setLevel _), _ => none
  | step .pass, _ => none
  | shutdown, _ => none

end CaptureAct

/-- What an act reports. -/
def CaptureAnswer.events : CaptureAnswer → List Event
  | stopped events => events
  | _ => []

namespace CaptureState

/-- The state after some acts. -/
def perform (receive : Receiver size σ) (acts : List CaptureAct)
    (state : CaptureState size capacity σ) : CaptureState size capacity σ :=
  acts.foldl (fun state act => act.apply receive state) state

/-- What some acts tell, one after the other. -/
def answers (receive : Receiver size σ) :
    List CaptureAct → CaptureState size capacity σ → List CaptureAnswer
  | [], _ => []
  | act :: rest, state => act.answer receive state :: answers receive rest (act.apply receive state)

/-- What some acts put into the queue, one after the other. -/
def accepted (receive : Receiver size σ) :
    List CaptureAct → CaptureState size capacity σ → List View
  | [], _ => []
  | act :: rest, state =>
      (act.accepts? state).toList ++ accepted receive rest (act.apply receive state)

/-- What some acts report, one after the other. -/
def events (receive : Receiver size σ) (acts : List CaptureAct)
    (state : CaptureState size capacity σ) : List Event :=
  (state.answers receive acts).flatMap CaptureAnswer.events

/-- What there is to see. -/
def look (state : CaptureState size capacity σ) : CaptureLook σ :=
  ⟨state.receiver, state.capture.pending, state.capture.dropped, state.capture.threshold,
    state.capture.worker.isRunning⟩

theorem accepted_append (receive : Receiver size σ) (front back : List CaptureAct)
    (state : CaptureState size capacity σ) :
    state.accepted receive (front ++ back) =
      state.accepted receive front ++ (state.perform receive front).accepted receive back := by
  induction front generalizing state with
  | nil => rfl
  | cons act rest induction =>
      rw [List.cons_append, accepted, accepted, induction, List.append_assoc]
      rfl

theorem events_cons (receive : Receiver size σ) (act : CaptureAct) (rest : List CaptureAct)
    (state : CaptureState size capacity σ) :
    state.events receive (act :: rest) =
      (act.answer receive state).events ++ (act.apply receive state).events receive rest := by
  rw [events, answers, List.flatMap_cons]
  rfl

theorem perform_steps (receive : Receiver size σ) (steps : List CaptureStep)
    (state : CaptureState size capacity σ) :
    state.perform receive (steps.map .step) = state.run receive steps :=
  List.foldl_map

end CaptureState

end LogRelay
