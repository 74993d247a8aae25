import LogRelay.Proofs.Capture.Pass

/-!
# One call

A call on a capture whose queue is idle is skipped, is refused, breaks down, or puts its message behind
everything that waits. The worker has no say in it: a capture goes on taking calls when nobody empties it
any more.
-/

namespace LogRelay

namespace Capture

variable {size capacity : Nat}

/-- What a call puts into the queue, as a reader gets it, if the queue takes it. -/
def accepts? (capture : Capture size capacity) (clock : Clock) (level : Level)
    (payload : Payload) : Option View :=
  if capture.isEnabled level ∧
      (capture.queue.pushWith fun slot => slot.set level clock.now payload).1 = .finished () then
    some ⟨level, clock.now, payload.kept (size - 1)⟩
  else none

/-- What can become of a call: the capture and the clock after it, whether it broke down, and what it put into
the queue. -/
inductive Logged (capture : Capture size capacity) (clock : Clock) (level : Level)
    (payload : Payload) : Capture size capacity × Clock × Bool → Option View → Prop
  /-- The threshold does not let the call through. -/
  | skipped (hdisabled : capture.isEnabled level = false) :
      Logged capture clock level payload (capture, clock, false) none
  /-- The queue is full. -/
  | refused (henabled : capture.isEnabled level = true)
      (hfull : capture.queue.waiting.length = capacity) :
      Logged capture clock level payload
        ({ capture with queue := capture.queue.countDrop }, clock.tick, false) none
  /-- The payload breaks down. -/
  | brokeDown (queue : Queue (Message size) capacity) (henabled : capture.isEnabled level = true)
      (hroom : capture.queue.waiting.length < capacity)
      (hending : (payload.fill (size - 1)).ending = .brokeDown) (hidle : queue.Idle)
      (hwaiting : queue.waiting = capture.queue.waiting)
      (hdropped : queue.dropped = capture.queue.dropped) :
      Logged capture clock level payload ({ capture with queue := queue }, clock.tick, true) none
  /-- The queue takes the message. -/
  | taken (queue : Queue (Message size) capacity) (message : Message size)
      (henabled : capture.isEnabled level = true) (hroom : capture.queue.waiting.length < capacity)
      (hending : (payload.fill (size - 1)).ending ≠ .brokeDown) (hidle : queue.Idle)
      (hwaiting : queue.waiting = capture.queue.waiting ++ [message])
      (hview : message.view = ⟨level, clock.now, payload.kept (size - 1)⟩)
      (hdropped : queue.dropped = capture.queue.dropped) :
      Logged capture clock level payload ({ capture with queue := queue }, clock.tick, false)
        (some ⟨level, clock.now, payload.kept (size - 1)⟩)

theorem logged {capture : Capture size capacity} (hidle : capture.queue.Idle) (clock : Clock)
    (level : Level) (payload : Payload) :
    capture.Logged clock level payload (capture.log clock level payload)
      (capture.accepts? clock level payload) := by
  let slot := capture.queue.peek capture.queue.writeIndex
  let fill := fun slot : Message size => slot.set level clock.now payload
  have hlength := capture.queue.length_waiting
  have hle := hidle.sound.count_le
  rw [Capture.log, accepts?]
  cases henabled : capture.isEnabled level with
  | false =>
      rw [if_neg Bool.false_ne_true, if_neg fun hpushed => Bool.false_ne_true hpushed.1]
      exact .skipped henabled
  | true =>
      rw [if_pos rfl]
      rcases Nat.lt_or_eq_of_le hle with hroom | hfull
      · by_cases hending : (payload.fill (size - 1)).ending = .brokeDown
        · have hfill : (fill slot).2 = true := by simp only [fill, Message.set, hending, if_true]
          obtain ⟨queue, hpush, hqueue, hwaiting, hdropped⟩ := hidle.pushWith_brokeDown hroom hfill
          rw [hpush]
          exact .brokeDown queue henabled (hlength ▸ hroom) hending hqueue hwaiting hdropped
        · obtain ⟨hfill, hview⟩ := slot.view_set level clock.now hending
          obtain ⟨queue, hpush, hqueue, hwaiting, hdropped⟩ :=
            @Queue.Idle.pushWith_room _ _ _ hidle hroom fill hfill
          rw [hpush]
          exact .taken queue (fill slot).1 henabled (hlength ▸ hroom) hending hqueue hwaiting hview
            hdropped
      · rw [Queue.pushWith_full (Nat.le_of_eq hfull.symm)]
        exact .refused henabled (hlength.trans hfull)

variable {capture : Capture size capacity} {clock : Clock} {level : Level} {payload : Payload}

theorem Logged.waiting_eq {result : Capture size capacity × Clock × Bool} {accepted : Option View}
    (hlogged : capture.Logged clock level payload result accepted) (hidle : capture.queue.Idle) :
    result.1.queue.Idle ∧
      ∃ more, result.1.queue.waiting = capture.queue.waiting ++ more ∧
        more.map Message.view = accepted.toList := by
  cases hlogged with
  | skipped => exact ⟨hidle, [], (List.append_nil _).symm, rfl⟩
  | refused => exact ⟨hidle.countDrop, [], (List.append_nil _).symm, rfl⟩
  | brokeDown queue henabled hroom hending hqueue hwaiting =>
      exact ⟨hqueue, [], hwaiting.trans (List.append_nil _).symm, rfl⟩
  | taken queue message henabled hroom hending hqueue hwaiting hview =>
      exact ⟨hqueue, [message], hwaiting, congrArg (fun view => [view]) hview⟩

theorem worker_log (capture : Capture size capacity) (clock : Clock) (level : Level)
    (payload : Payload) : (capture.log clock level payload).1.worker = capture.worker := by
  rw [Capture.log]
  split <;> rfl

theorem pending_eq (capture : Capture size capacity) :
    capture.pending = capture.queue.waiting.length := capture.queue.length_waiting.symm

/-- A call that the threshold lets through is accepted while there is room, unless its payload breaks down. -/
theorem log_of_room (hidle : capture.queue.Idle) (henabled : capture.isEnabled level = true)
    (hroom : capture.pending < capacity)
    (hending : (payload.fill (size - 1)).ending ≠ .brokeDown) :
    capture.accepts? clock level payload = some ⟨level, clock.now, payload.kept (size - 1)⟩ ∧
      (capture.log clock level payload).1.pending = capture.pending + 1 ∧
      (capture.log clock level payload).1.dropped = capture.dropped := by
  have hlogged := logged hidle clock level payload
  generalize capture.log clock level payload = result at hlogged ⊢
  generalize capture.accepts? clock level payload = accepted at hlogged ⊢
  rw [pending_eq] at hroom
  cases hlogged with
  | skipped hdisabled => exact absurd (hdisabled.symm.trans henabled) Bool.false_ne_true
  | refused _ hfull => exact absurd hfull (Nat.ne_of_lt hroom)
  | brokeDown queue _ _ hbroke => exact absurd hbroke hending
  | taken queue message _ _ _ _ hwaiting _ hdropped =>
      refine ⟨rfl, ?_, congrArg UInt32.toNat hdropped⟩
      rw [pending_eq, pending_eq, hwaiting, List.length_append, List.length_singleton]

theorem log_of_full (hidle : capture.queue.Idle) (henabled : capture.isEnabled level = true)
    (hfull : capacity ≤ capture.pending) :
    capture.accepts? clock level payload = none ∧
      (capture.log clock level payload).1.pending = capture.pending ∧
      (capture.log clock level payload).1.dropped = (capture.dropped + 1) % 2 ^ 32 := by
  have hlogged := logged hidle clock level payload
  generalize capture.log clock level payload = result at hlogged ⊢
  generalize capture.accepts? clock level payload = accepted at hlogged ⊢
  rw [pending_eq] at hfull
  cases hlogged with
  | skipped hdisabled => exact absurd (hdisabled.symm.trans henabled) Bool.false_ne_true
  | refused => exact ⟨rfl, rfl, UInt32.toNat_add capture.queue.dropped 1⟩
  | brokeDown queue _ hroom => exact absurd hroom (Nat.not_lt.2 hfull)
  | taken queue message _ hroom => exact absurd hroom (Nat.not_lt.2 hfull)

end Capture

end LogRelay
