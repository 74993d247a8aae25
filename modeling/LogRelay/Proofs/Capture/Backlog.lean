import LogRelay.Proofs.Capture.Ledger
import LogRelay.Proofs.Capture.Call

/-!
# The backlog of a capture

A backlog is what a capture holds for its receiver: the messages waiting and the number of messages refused
since the last report. It says what becomes of every call, also of one whose payload breaks down, and what
the next pass hands over. A report counts as a word counts.
-/

namespace LogRelay

/-- What waits in a capture. -/
structure Backlog where
  /-- The least urgent level that is let through. -/
  level : Level
  /-- The calls waiting, oldest first. -/
  waiting : List View
  /-- Number of calls refused since the last pass. -/
  refused : Nat

namespace Backlog

/-- A backlog without calls. -/
def start (level : Level) : Backlog := ⟨level, [], 0⟩

/-- The backlog of a queue and messages of some size after a call at a time. -/
def log (capacity room : Nat) (time : Duration) (level : Level) (payload : Payload)
    (backlog : Backlog) : Backlog :=
  if level.passes backlog.level then
    if backlog.waiting.length = capacity then { backlog with refused := backlog.refused + 1 }
    else if (payload.fill room).ending = .brokeDown then backlog
    else { backlog with waiting := backlog.waiting ++ [⟨level, time, payload.kept room⟩] }
  else backlog

/-- The call that waits from now on, if one does. -/
def taken? (capacity room : Nat) (time : Duration) (level : Level) (payload : Payload)
    (backlog : Backlog) : Option View :=
  if level.passes backlog.level = true ∧ backlog.waiting.length ≠ capacity ∧
      (payload.fill room).ending ≠ .brokeDown then
    some ⟨level, time, payload.kept room⟩
  else none

/-- The number of refused calls that the capture knows of. -/
def counted (backlog : Backlog) : Nat := backlog.refused % 2 ^ 32

/-- What a pass at a time hands over. -/
def due (time : Duration) (backlog : Backlog) : List Delivery :=
  backlog.waiting.map .call ++
    if backlog.counted = 0 then [] else [.report time backlog.counted]

/-- The backlog after a pass. -/
def handedOver (backlog : Backlog) : Backlog := { backlog with waiting := [], refused := 0 }

theorem waiting_log (capacity room : Nat) (time : Duration) (level : Level) (payload : Payload)
    (backlog : Backlog) :
    (backlog.log capacity room time level payload).waiting =
      backlog.waiting ++ (backlog.taken? capacity room time level payload).toList := by
  rw [log, taken?]
  by_cases hpasses : level.passes backlog.level = true
  · by_cases hfull : backlog.waiting.length = capacity
    · simp [hpasses, hfull]
    · by_cases hending : (payload.fill room).ending = .brokeDown
      · simp [hpasses, hfull, hending]
      · simp [hpasses, hfull, hending]
  · simp [hpasses]

theorem level_log (capacity room : Nat) (time : Duration) (level : Level) (payload : Payload)
    (backlog : Backlog) : (backlog.log capacity room time level payload).level = backlog.level := by
  rw [log]
  split
  · split
    · rfl
    · split <;> rfl
  · rfl

theorem sum_count_due (time : Duration) (backlog : Backlog) :
    ((backlog.due time).map Delivery.count).sum = backlog.counted := by
  rw [due, List.map_append, List.sum_append, Delivery.sum_count_call]
  split <;> simp [Delivery.count, *]

end Backlog

/-- Reading the clock, if it is read. -/
def Clock.tickIf (read : Bool) (clock : Clock) : Clock := if read then clock.tick else clock

namespace Capture

variable {size capacity : Nat} {σ : Type} {capture : Capture size capacity} {backlog : Backlog}

/-- A capture in use has a backlog. -/
structure Keeps (capture : Capture size capacity) (backlog : Backlog) : Prop where
  /-- No push and no pop is in progress. -/
  idle : capture.queue.Idle
  /-- The worker runs. -/
  running : capture.worker.thread = .running
  /-- The threshold is the same. -/
  level_eq : capture.threshold = backlog.level
  /-- The same calls wait. -/
  waiting_eq : capture.queue.waiting.map Message.view = backlog.waiting
  /-- The same number of refused calls is to be reported. -/
  dropped_eq : capture.dropped = backlog.counted

theorem keeps_start (hcapacity : IsCapacity capacity) (hsize : 0 < size) (period : Duration)
    (levelText : String) :
    (start hcapacity hsize period levelText).1.Keeps (.start (Level.parseOrInfo levelText)) :=
  ⟨Queue.idle_new hcapacity _, rfl, rfl,
    congrArg (List.map Message.view) (Queue.waiting_new hcapacity (Message.blank hsize)), rfl⟩

theorem Keeps.setLevel (hkeeps : capture.Keeps backlog) (levelText : String) :
    (capture.setLevel levelText).Keeps { backlog with level := Level.parseOrInfo levelText } :=
  ⟨hkeeps.idle, hkeeps.running, rfl, hkeeps.waiting_eq, hkeeps.dropped_eq⟩

theorem Keeps.length_waiting (hkeeps : capture.Keeps backlog) :
    backlog.waiting.length = capture.queue.count := by
  rw [← hkeeps.waiting_eq, List.length_map, Queue.length_waiting]

theorem Keeps.isEnabled_eq (hkeeps : capture.Keeps backlog) (level : Level) :
    capture.isEnabled level = level.passes backlog.level := by
  rw [isEnabled, hkeeps.level_eq]

/-- A push is refused when the backlog is full. -/
theorem Keeps.refused_iff (hkeeps : capture.Keeps backlog)
    (fill : Message size → Message size × Bool) :
    (capture.queue.pushWith fill).1 = .refused ↔ backlog.waiting.length = capacity := by
  have hlength := hkeeps.length_waiting
  have hle := hkeeps.idle.sound.count_le
  by_cases hfull : backlog.waiting.length = capacity
  · rw [Queue.pushWith_full (by omega)]
    simp [hfull]
  · have hroom : capture.queue.count < capacity := by omega
    have hnever : (capture.queue.pushWith fill).1 ≠ .refused := by
      cases hfill : (fill (capture.queue.peek capture.queue.writeIndex)).2 with
      | false =>
          obtain ⟨pushed, hpush, -⟩ := hkeeps.idle.pushWith_room hroom hfill
          simp [hpush]
      | true =>
          obtain ⟨abandoned, hpush, -⟩ := hkeeps.idle.pushWith_brokeDown hroom hfill
          simp [hpush]
    exact iff_of_false hnever hfull

/-- A push is finished when there is room and the payload does not break down. -/
theorem Keeps.finished_iff (hkeeps : capture.Keeps backlog) (level : Level) (time : Duration)
    (payload : Payload) :
    (capture.queue.pushWith fun slot => slot.set level time payload).1 = .finished () ↔
      backlog.waiting.length ≠ capacity ∧ (payload.fill (size - 1)).ending ≠ .brokeDown := by
  let fill := fun slot : Message size => slot.set level time payload
  have hrefused := hkeeps.refused_iff fill
  have hlength := hkeeps.length_waiting
  have hle := hkeeps.idle.sound.count_le
  by_cases hfull : backlog.waiting.length = capacity
  · rw [hrefused.2 hfull]
    simp [hfull]
  · have hroom : capture.queue.count < capacity := by omega
    by_cases hending : (payload.fill (size - 1)).ending = .brokeDown
    · have hfill : (fill (capture.queue.peek capture.queue.writeIndex)).2 = true := by
        simp only [fill, Message.set, hending, if_true]
      obtain ⟨abandoned, hpush, -⟩ := hkeeps.idle.pushWith_brokeDown hroom hfill
      rw [hpush]
      simp [hending]
    · obtain ⟨hfill, -⟩ := Message.view_set
        (capture.queue.peek capture.queue.writeIndex) level time hending
      obtain ⟨pushed, hpush, -⟩ := @Queue.Idle.pushWith_room _ _ _ hkeeps.idle hroom fill hfill
      rw [hpush]
      simp [hfull, hending]

/-- A call is refused, breaks down or waits as the backlog says. -/
theorem Keeps.log (hkeeps : capture.Keeps backlog) (clock : Clock) (level : Level)
    (payload : Payload) :
    (capture.log clock level payload).1.Keeps
        (backlog.log capacity (size - 1) clock.now level payload) ∧
      (capture.log clock level payload).2.1 = clock.tickIf (level.passes backlog.level) := by
  have hlength : backlog.waiting.length = capture.queue.waiting.length := by
    rw [hkeeps.length_waiting, Queue.length_waiting]
  have hlogged := logged hkeeps.idle clock level payload
  generalize capture.log clock level payload = result at hlogged ⊢
  generalize capture.accepts? clock level payload = accepted at hlogged
  rw [Backlog.log, ← hkeeps.isEnabled_eq, hlength]
  cases hlogged with
  | skipped hdisabled =>
      rw [hdisabled]
      exact ⟨hkeeps, rfl⟩
  | refused henabled hfull =>
      rw [henabled, if_pos rfl, if_pos hfull]
      refine ⟨⟨hkeeps.idle.countDrop, hkeeps.running, hkeeps.level_eq, hkeeps.waiting_eq, ?_⟩, rfl⟩
      have hdropped : capture.queue.dropped.toNat = backlog.refused % 2 ^ 32 := hkeeps.dropped_eq
      have hone : (1 : UInt32).toNat = 1 := rfl
      change (capture.queue.dropped + 1).toNat = (backlog.refused + 1) % 2 ^ 32
      rw [UInt32.toNat_add, hdropped, hone, Nat.mod_add_mod]
  | brokeDown queue henabled hroom hending hidle hwaiting hdropped =>
      rw [henabled, if_pos rfl, if_neg (Nat.ne_of_lt hroom), if_pos hending]
      exact ⟨⟨hidle, hkeeps.running, hkeeps.level_eq,
        (congrArg (List.map Message.view) hwaiting).trans hkeeps.waiting_eq,
        (congrArg UInt32.toNat hdropped).trans hkeeps.dropped_eq⟩, rfl⟩
  | taken queue message henabled hroom hending hidle hwaiting hview hdropped =>
      rw [henabled, if_pos rfl, if_neg (Nat.ne_of_lt hroom), if_neg hending]
      refine ⟨⟨hidle, hkeeps.running, hkeeps.level_eq, ?_,
        (congrArg UInt32.toNat hdropped).trans hkeeps.dropped_eq⟩, rfl⟩
      change queue.waiting.map Message.view = _
      rw [hwaiting, List.map_append, hkeeps.waiting_eq, List.map_singleton, hview]

/-- What the worker does: the receiver gets what is due, unless it breaks down over some of it. -/
theorem Keeps.drain (hsize : 42 ≤ size) (hkeeps : capture.Keeps backlog) (clock : Clock)
    {receive : Receiver size σ}
    (hreceive : ∀ message : Message size,
      message.view ∈ (backlog.due clock.now).map Delivery.view →
        ∀ receiver, (receive message receiver).2 = false) (receiver : σ) :
    ∃ queue messages, Flow.drain receive ⟨capture.queue, clock, receiver⟩ =
        (⟨queue, clock.tickIf (backlog.counted ≠ 0), Receiver.takeAll receive messages receiver⟩,
          false) ∧
      messages.map Message.view = (backlog.due clock.now).map Delivery.view ∧
      { capture with queue := queue }.Keeps backlog.handedOver := by
  let flow : Flow size capacity σ := ⟨capture.queue, clock, receiver⟩
  have hidle : flow.queue.Idle := hkeeps.idle
  have hcount : flow.queue.dropped.toNat = backlog.counted := hkeeps.dropped_eq
  have hnone : flow.queue.dropped = 0 ↔ backlog.counted = 0 := by
    rw [← hcount, ← UInt32.toNat_inj]
    rfl
  have hdue : (backlog.due clock.now).map Delivery.view =
      flow.queue.waiting.map Message.view ++ if flow.queue.dropped = 0 then [] else [flow.report] := by
    have hcalls : (Delivery.view ∘ Delivery.call) = id := rfl
    rw [Backlog.due, List.map_append, List.map_map, hcalls, List.map_id, ← hkeeps.waiting_eq]
    simp only [hnone, Flow.report, hcount]
    split <;> rfl
  rw [hdue] at hreceive ⊢
  have hcalm : ∀ message, message ∈ flow.queue.waiting ∨
      (flow.queue.dropped ≠ 0 ∧ message.view = flow.report) →
        ∀ receiver, (receive message receiver).2 = false := by
    intro message hmessage
    apply hreceive
    rcases hmessage with hmem | ⟨hsome, hview⟩
    · exact List.mem_append_left _ (List.mem_map_of_mem hmem)
    · rw [if_neg hsome, hview]
      exact List.mem_append_right _ List.mem_cons_self
  obtain ⟨queue, reports, hdrain, hqueue, hempty, hzero, hreports⟩ :=
    Flow.drain_idle hsize hcalm hidle
  refine ⟨queue, flow.queue.waiting ++ reports, ?_, ?_, hqueue, hkeeps.running, hkeeps.level_eq, ?_,
    ?_⟩
  · have hclock : (if flow.queue.dropped = 0 then flow.clock else flow.clock.tick) =
        clock.tickIf (backlog.counted ≠ 0) := by
      simp only [hnone, Clock.tickIf, decide_eq_true_eq, ite_not]
      rfl
    rw [← hclock]
    exact hdrain
  · rw [List.map_append, hreports]
  · change queue.waiting.map Message.view = []
    rw [hempty, List.map_nil]
  · change queue.dropped.toNat = 0
    rw [hzero]
    rfl

end Capture

end LogRelay
