import LogRelay.Proofs.Capture.Ledger
import LogRelay.Proofs.Capture.Call
import Mathlib.Data.List.Infix

/-!
# What a capture hands over

A capture that is used from one thread at a time, with a receiver that never breaks down, does what its
ledger says: its queue holds the calls waiting, its drop count is the number of calls to be reported, and
its receiver has taken exactly what has been handed over.
-/

namespace LogRelay

variable {size capacity : Nat} {σ : Type}

/-- A capture in use, with the clock it reads and the receiver it hands messages to. -/
structure CaptureState (size capacity : Nat) (σ : Type) where
  /-- The capture. -/
  capture : Capture size capacity
  /-- The clock. -/
  clock : Clock
  /-- The receiver. -/
  receiver : σ

namespace CaptureState

/-- The state after a step. -/
def step (receive : Receiver size σ) :
    CaptureStep → CaptureState size capacity σ → CaptureState size capacity σ
  | .log level payload, state =>
      let logged := state.capture.log state.clock level payload
      ⟨logged.1, logged.2.1, state.receiver⟩
  | .setLevel levelText, state => { state with capture := state.capture.setLevel levelText }
  | .pass, state =>
      let passed := state.capture.pass receive state.clock state.receiver
      ⟨passed.1, passed.2.1, passed.2.2⟩

/-- The state after some steps. -/
def run (receive : Receiver size σ) (steps : List CaptureStep)
    (state : CaptureState size capacity σ) : CaptureState size capacity σ :=
  steps.foldl (fun state step => state.step receive step) state

/-- The state after the worker has been stopped. -/
def shutdown (receive : Receiver size σ) (state : CaptureState size capacity σ) :
    CaptureState size capacity σ :=
  let stopped := state.capture.shutdown receive state.clock state.receiver
  ⟨stopped.1, stopped.2.1, stopped.2.2.1⟩

/-- What a pass of the worker works on. -/
def flow (state : CaptureState size capacity σ) : Flow size capacity σ :=
  ⟨state.capture.queue, state.clock, state.receiver⟩

/-- The state with what a pass has left, and what has become of the thread. -/
def passed (state : CaptureState size capacity σ) (thread : ThreadState)
    (flow : Flow size capacity σ) : CaptureState size capacity σ :=
  ⟨{ state.capture with
      queue := flow.queue
      worker := { state.capture.worker with thread := thread } },
    flow.clock, flow.receiver⟩

/-- A pass is the last of a worker if the receiver breaks down. -/
theorem pass_of_running {receive : Receiver size σ} {state : CaptureState size capacity σ}
    (hrunning : state.capture.worker.thread = .running) :
    state.step receive .pass =
      state.passed (if (Flow.drain receive state.flow).2 then .brokeDown else .running)
        (Flow.drain receive state.flow).1 := by
  have hrun : state.capture.worker.isRunning = true := by simp [Worker.isRunning, hrunning]
  rw [step, passed]
  simp only [Capture.pass, Worker.pass, hrun, if_true]
  change (⟨{ state.capture with queue := _, worker := if (Flow.drain receive state.flow).2 then _ else _ },
    _, _⟩ : CaptureState size capacity σ) = _
  cases (Flow.drain receive state.flow).2 with
  | true => rfl
  | false =>
      rw [if_neg Bool.false_ne_true, if_neg Bool.false_ne_true, ← hrunning]
      rfl

theorem pass_of_stopped {receive : Receiver size σ} {state : CaptureState size capacity σ}
    (hstopped : state.capture.worker.isRunning = false) : state.step receive .pass = state := by
  rw [CaptureState.step]
  simp only [Capture.pass, Worker.pass, hstopped, Bool.false_eq_true, if_false]

/-- The capture does what its ledger says. -/
structure Keeps (receive : Receiver size σ) (receiver : σ)
    (state : CaptureState size capacity σ) (ledger : Ledger) : Prop where
  /-- No push and no pop is in progress. -/
  idle : state.capture.queue.Idle
  /-- The worker runs. -/
  running : state.capture.worker.thread = .running
  /-- The threshold is the same. -/
  threshold_eq : state.capture.threshold = ledger.threshold
  /-- The clock is the same. -/
  clock_eq : state.clock = ledger.clock
  /-- The same calls wait. -/
  waiting_eq : state.capture.queue.waiting.map Message.view = ledger.waiting
  /-- The same number of refused calls is to be reported. -/
  dropped_eq : state.capture.queue.dropped.toNat = ledger.refused
  /-- The receiver has taken what has been handed over. -/
  delivered_eq : ∃ messages : List (Message size),
    state.receiver = Receiver.takeAll receive messages receiver ∧
      messages.map Message.view = ledger.delivered.map Delivery.view

variable {receive : Receiver size σ} {receiver : σ} {state : CaptureState size capacity σ}
  {ledger : Ledger}

/-! ## Steps -/

theorem Keeps.length_waiting (hkeeps : state.Keeps receive receiver ledger) :
    ledger.waiting.length = state.capture.queue.count := by
  rw [← hkeeps.waiting_eq, List.length_map, Queue.length_waiting]

/-- A call is skipped, refused or captured as the ledger says. -/
theorem Keeps.log (hkeeps : state.Keeps receive receiver ledger) {level : Level}
    {payload : Payload} (hpayload : payload.IsStrict)
    (hfew : (ledger.step capacity (size - 1) (.log level payload)).refused < 2 ^ 32) :
    (state.step receive (.log level payload)).Keeps receive receiver
      (ledger.step capacity (size - 1) (.log level payload)) := by
  obtain ⟨hidle, hrunning, hthreshold, hclock, hwaiting, hdropped, hdelivered⟩ := id hkeeps
  have hlength : ledger.waiting.length = state.capture.queue.waiting.length := by
    rw [hkeeps.length_waiting, Queue.length_waiting]
  have hpasses : level.passes ledger.threshold = state.capture.isEnabled level := by
    rw [Capture.isEnabled, hthreshold]
  have hlogged := Capture.logged hidle state.clock level payload
  rw [CaptureState.step]
  generalize state.capture.log state.clock level payload = result at hlogged ⊢
  generalize state.capture.accepts? state.clock level payload = accepted at hlogged
  rw [Ledger.step, Ledger.enter, hpasses, hlength] at hfew ⊢
  cases hlogged with
  | skipped hdisabled =>
      rw [hdisabled, if_neg Bool.false_ne_true]
      exact hkeeps
  | refused henabled hfull =>
      rw [henabled, if_pos rfl, if_pos hfull] at hfew ⊢
      refine ⟨hidle.countDrop, hrunning, hthreshold, by rw [hclock], hwaiting, ?_, hdelivered⟩
      have hone : (1 : UInt32).toNat = 1 := rfl
      change (state.capture.queue.dropped + 1).toNat = ledger.refused + 1
      rw [UInt32.toNat_add, hone, hdropped, Nat.mod_eq_of_lt hfew]
  | brokeDown queue henabled hroom hending =>
      exact absurd hending (Payload.ending_fill_strict hpayload)
  | taken queue message henabled hroom hending hqueue hbehind hview hsame =>
      rw [henabled, if_pos rfl, if_neg (Nat.ne_of_lt hroom)]
      refine ⟨hqueue, hrunning, hthreshold, by rw [hclock], ?_,
        (congrArg UInt32.toNat hsame).trans hdropped, hdelivered⟩
      change queue.waiting.map Message.view = _
      rw [hbehind, List.map_append, hwaiting, List.map_singleton, hview, hclock,
        Payload.kept_strict hpayload]

theorem Keeps.setLevel (hkeeps : state.Keeps receive receiver ledger) (levelText : String) :
    (state.step receive (.setLevel levelText)).Keeps receive receiver
      { ledger with threshold := Level.parseOrInfo levelText } :=
  ⟨hkeeps.idle, hkeeps.running, rfl, hkeeps.clock_eq, hkeeps.waiting_eq, hkeeps.dropped_eq,
    hkeeps.delivered_eq⟩

/-- A pass of the worker hands over what the ledger hands over. -/
theorem Keeps.pass (hsize : 42 ≤ size)
    (hreceive : ∀ message receiver, (receive message receiver).2 = false)
    (hkeeps : state.Keeps receive receiver ledger) :
    (state.step receive .pass).Keeps receive receiver ledger.handOver.report := by
  obtain ⟨hidle, hrunning, hthreshold, hclock, hwaiting, hdropped, messages, htaken, hmessages⟩ :=
    hkeeps
  let flow := state.flow
  have hflow : flow.queue.Idle := hidle
  obtain ⟨queue, reports, hdrain, hqueue, hempty, hzero, hreports⟩ :=
    Flow.drain_idle hsize (fun message _ => hreceive message) hflow
  have hstep : state.step receive .pass =
      ⟨{ state.capture with queue := queue },
        if flow.queue.dropped = 0 then flow.clock else flow.clock.tick,
        Receiver.takeAll receive (flow.queue.waiting ++ reports) flow.receiver⟩ := by
    rw [pass_of_running hrunning, hdrain, passed, if_neg Bool.false_ne_true, ← hrunning]
  have hnone : flow.queue.dropped = 0 ↔ ledger.refused = 0 := by
    rw [← hdropped, ← UInt32.toNat_inj]
    rfl
  have hviews : (flow.queue.waiting ++ reports).map Message.view =
      ledger.waiting ++ if ledger.refused = 0 then []
        else [⟨.warning, ledger.clock.now, reportText ledger.refused⟩] := by
    rw [List.map_append, hreports]
    simp only [hnone]
    change state.capture.queue.waiting.map Message.view ++ (if ledger.refused = 0 then []
      else [⟨.warning, state.clock.now, reportText state.capture.queue.dropped.toNat⟩]) = _
    rw [hwaiting, hclock, hdropped]
  rw [hstep, Ledger.report_handOver]
  refine ⟨hqueue, hrunning, hthreshold, ?_, ?_, ?_, messages ++ (flow.queue.waiting ++ reports),
    ?_, ?_⟩
  · simp only [hnone]
    change (if ledger.refused = 0 then state.clock else state.clock.tick) = _
    rw [hclock]
  · change queue.waiting.map Message.view = []
    rw [hempty]
    rfl
  · change queue.dropped.toNat = 0
    rw [hzero]
    rfl
  · change Receiver.takeAll receive (flow.queue.waiting ++ reports) state.receiver = _
    rw [Receiver.takeAll_append receive messages, ← htaken]
  · rw [List.map_append, hmessages, hviews, List.map_append, List.map_append, List.map_map]
    congr 2
    · exact (List.map_id _).symm
    · split <;> rfl

/-! ## Runs -/

theorem Keeps.step (hsize : 42 ≤ size)
    (hreceive : ∀ message receiver, (receive message receiver).2 = false)
    (hkeeps : state.Keeps receive receiver ledger) {step : CaptureStep} (hstep : step.IsStrict)
    (hfew : (ledger.step capacity (size - 1) step).refused < 2 ^ 32) :
    (state.step receive step).Keeps receive receiver (ledger.step capacity (size - 1) step) := by
  cases step with
  | log level payload => exact hkeeps.log hstep hfew
  | setLevel levelText => exact hkeeps.setLevel levelText
  | pass => exact hkeeps.pass hsize hreceive

theorem Keeps.run (hsize : 42 ≤ size)
    (hreceive : ∀ message receiver, (receive message receiver).2 = false)
    (hkeeps : state.Keeps receive receiver ledger) {steps : List CaptureStep}
    (hsteps : ∀ step ∈ steps, step.IsStrict)
    (hfew : ∀ before, before <+: steps →
      (ledger.run capacity (size - 1) before).refused < 2 ^ 32) :
    (state.run receive steps).Keeps receive receiver (ledger.run capacity (size - 1) steps) := by
  induction steps generalizing state ledger with
  | nil => exact hkeeps
  | cons step rest induction =>
      have hfirst : (ledger.step capacity (size - 1) step).refused < 2 ^ 32 :=
        hfew [step] (List.cons_prefix_cons.2 ⟨rfl, List.nil_prefix⟩)
      apply induction (hkeeps.step hsize hreceive (hsteps step List.mem_cons_self) hfirst)
      · intro other hother
        exact hsteps other (List.mem_cons_of_mem step hother)
      · intro before hbefore
        exact hfew (step :: before) (List.cons_prefix_cons.2 ⟨rfl, hbefore⟩)

theorem shutdown_of_running (hrunning : state.capture.worker.thread = .running) :
    state.shutdown receive = state.passed .joined (Flow.drain receive state.flow).1 := by
  have hopen : ¬state.capture.worker.thread = .joined := by simp [hrunning]
  have hrun : state.capture.worker.isRunning = true := by simp [Worker.isRunning, hrunning]
  rw [shutdown, passed]
  simp only [Capture.shutdown, Worker.stop, if_neg hopen, Worker.pass, hrun, if_true]
  change (⟨{ state.capture with
      queue := _
      worker := { (if (Flow.drain receive state.flow).2 then _ else _ : Worker) with thread := _ } },
    _, _⟩ : CaptureState size capacity σ) = _
  cases (Flow.drain receive state.flow).2 <;> rfl

theorem shutdown_eq (hrunning : state.capture.worker.thread = .running) :
    (state.shutdown receive).receiver = (state.step receive .pass).receiver ∧
      (state.shutdown receive).capture.queue = (state.step receive .pass).capture.queue := by
  rw [shutdown_of_running hrunning, pass_of_running hrunning]
  exact ⟨rfl, rfl⟩

theorem keeps_start (hcapacity : IsCapacity capacity) (hsize : 0 < size) (period : Duration)
    (levelText : String) (clock : Clock) (receive : Receiver size σ) (receiver : σ) :
    Keeps receive receiver
      ⟨(Capture.start hcapacity hsize period levelText).1, clock, receiver⟩
      (Ledger.start (Level.parseOrInfo levelText) clock) := by
  refine ⟨Queue.idle_new hcapacity _, rfl, rfl, rfl, ?_, rfl, [], rfl, rfl⟩
  exact congrArg (List.map Message.view) (Queue.waiting_new hcapacity (Message.blank hsize))

end CaptureState

/-- A capture delivers. Whatever is logged, whatever thresholds are set and whenever passes are made, once
the worker has been stopped the receiver has taken the deliveries of the ledger and nothing else: every
call that was let through and did not find the queue full, once and in order, each with its level, its
clock reading and the longest beginning of its text that fits; and reports whose counts add up to the
calls refused. -/
theorem Capture.shutdown_delivers (hcapacity : IsCapacity capacity) (hsize : 42 ≤ size)
    (period : Duration) (levelText : String) {receive : Receiver size σ}
    (hreceive : ∀ message receiver, (receive message receiver).2 = false) (clock : Clock)
    (receiver : σ) {steps : List CaptureStep} (hsteps : ∀ step ∈ steps, step.IsStrict)
    (hfew : ∀ before, before <+: steps →
      ((Ledger.start (Level.parseOrInfo levelText) clock).run capacity (size - 1)
        before).refused < 2 ^ 32) :
    let start : CaptureState size capacity σ :=
      ⟨(Capture.start hcapacity (Nat.lt_of_lt_of_le (by decide) hsize) period levelText).1, clock,
        receiver⟩
    let final := (start.run receive steps).shutdown receive
    let ledger := (Ledger.start (Level.parseOrInfo levelText) clock).run capacity (size - 1)
      (steps ++ [.pass])
    (∃ messages : List (Message size),
      final.receiver = Receiver.takeAll receive messages receiver ∧
      messages.map Message.view = ledger.delivered.map Delivery.view) ∧
    ledger.delivered.filterMap Delivery.call? = ledger.accepted ∧
    (ledger.delivered.map Delivery.count).sum = ledger.refusals ∧
    (∀ time, .report time 0 ∉ ledger.delivered) ∧
    final.capture.pending = 0 ∧ final.capture.dropped = 0 := by
  intro start final ledger
  have hkeeps := (CaptureState.keeps_start hcapacity (Nat.lt_of_lt_of_le (by decide) hsize) period
    levelText clock receive receiver).run hsize hreceive hsteps hfew
  have hlast := hkeeps.pass hsize hreceive
  have hledger : ledger = (((Ledger.start (Level.parseOrInfo levelText) clock).run capacity
      (size - 1) steps).handOver.report) := by
    simp only [ledger, Ledger.run, List.foldl_append, List.foldl_cons, List.foldl_nil]
    rfl
  obtain ⟨hreceiver, hqueue⟩ : final.receiver =
        ((start.run receive steps).step receive .pass).receiver ∧
      final.capture.queue = ((start.run receive steps).step receive .pass).capture.queue :=
    CaptureState.shutdown_eq hkeeps.running
  have hbalanced : ledger.Balanced capacity :=
    (Ledger.balanced_start (Level.parseOrInfo levelText) clock capacity).run (steps ++ [.pass])
  rw [← hledger] at hlast
  have hwaiting : ledger.waiting = [] := by rw [hledger, Ledger.report_handOver]
  have hrefused : ledger.refused = 0 := by rw [hledger, Ledger.report_handOver]
  refine ⟨?_, ?_, ?_, hbalanced.report_ne_zero, ?_, ?_⟩
  · rw [hreceiver]
    exact hlast.delivered_eq
  · rw [hbalanced.accepted_eq]
    rw [hwaiting, List.append_nil]
  · rw [hbalanced.refusals_eq]
    rw [hrefused, Nat.add_zero]
  · rw [Capture.pending, hqueue]
    change Queue.count _ = 0
    rw [← hlast.length_waiting, hwaiting, List.length_nil]
  · rw [Capture.dropped, hqueue, hlast.dropped_eq, hrefused]

/-- Three calls of which the last finds the queue full, a call below the threshold and one more call. -/
def CaptureStep.crowded : List CaptureStep :=
  [.log .info (.ofText "a"), .log .error (.ofText "b"), .log .info (.ofText "c"), .pass,
    .setLevel "ERROR", .log .info (.ofText "d"), .log .error (.ofText "e")]

/-- The refused call is reported behind those before it, and the call below the threshold is left out. -/
theorem Capture.crowded_delivers :
    let receive : Receiver 64 (List View) := fun message taken => (taken ++ [message.view], false)
    let start : CaptureState 64 2 (List View) :=
      ⟨(Capture.start (by decide) (by decide) (.ofMillis 50) "info").1, .steady 0 1, []⟩
    let ledger := (Ledger.start (Level.parseOrInfo "info") (.steady 0 1)).run 2 63
      (CaptureStep.crowded ++ [.pass])
    ((start.run receive CaptureStep.crowded).shutdown receive).receiver =
        [⟨.info, ⟨0⟩, "a"⟩, ⟨.error, ⟨1⟩, "b"⟩, ⟨.warning, ⟨3⟩, "Dropped 1 real-time log messages"⟩,
          ⟨.error, ⟨4⟩, "e"⟩] ∧
      ledger.delivered.filterMap Delivery.call? = ledger.accepted ∧
      (ledger.delivered.map Delivery.count).sum = ledger.refusals := by
  intro receive start ledger
  have hfew : ∀ before ∈ CaptureStep.crowded.inits,
      ((Ledger.start (Level.parseOrInfo "info") (.steady 0 1)).run 2 63 before).refused < 2 ^ 32 := by
    decide +kernel
  obtain ⟨⟨messages, hreceiver, hviews⟩, hcalls, hcounts, -⟩ :=
    Capture.shutdown_delivers (by decide) (by decide) (.ofMillis 50) "info"
      (fun message taken => (rfl : (receive message taken).2 = false)) (.steady 0 1) []
      (by decide : ∀ step ∈ CaptureStep.crowded, step.IsStrict)
      fun before hbefore => hfew before ((List.mem_inits _ _).2 hbefore)
  have htaken : ∀ (messages : List (Message 64)) (taken : List View),
      Receiver.takeAll receive messages taken = taken ++ messages.map Message.view := by
    intro messages
    induction messages with
    | nil => simp [Receiver.takeAll]
    | cons message rest induction =>
        intro taken
        have hstep := induction (taken ++ [message.view])
        rw [List.append_assoc] at hstep
        exact hstep
  refine ⟨?_, hcalls, hcounts⟩
  rw [hreceiver, htaken, hviews]
  decide +kernel

end LogRelay
