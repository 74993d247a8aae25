import LogRelay.Proofs.Capture.Acts

/-!
# A receiver that breaks down

When the receiver breaks down over a message that waits, the worker is gone. The message stays at the front
of the queue, nothing is handed over any more, and calls are accepted until the queue is full. Stopping the
worker then reports the breakdown and makes no last pass.
-/

namespace LogRelay

variable {size capacity : Nat} {σ : Type}

/-- What is handed over, as a reader of messages of some size gets it. -/
def Delivery.seen (size : Nat) : Delivery → View
  | call view => view
  | report time count =>
      ⟨.warning, time, (Flow.dropReport (UInt32.ofNat count)).fitted (size - 1)⟩

theorem Delivery.map_seen_call (size : Nat) (views : List View) :
    (views.map Delivery.call).map (Delivery.seen size) = views := by
  rw [List.map_map]
  exact List.map_id views

theorem Flow.fittedReport_eq_seen (flow : Flow size capacity σ) :
    flow.fittedReport =
      (Delivery.report flow.clock.now flow.queue.dropped.toNat).seen size := by
  rw [fittedReport, Delivery.seen, UInt32.ofNat_toNat]

/-- A receiver has taken some deliveries one after the other and has not broken down over one of them, which
has brought it from one state to another. -/
def Receiver.Took (receive : Receiver size σ) (receiver : σ) (deliveries : List Delivery)
    (reached : σ) : Prop :=
  ∃ messages : List (Message size), receive.breaksOver messages receiver = false ∧
    receive.takeAll messages receiver = reached ∧
    messages.map Message.view = deliveries.map (Delivery.seen size)

theorem Receiver.Took.more {receive : Receiver size σ} {receiver reached : σ}
    {deliveries further : List Delivery} {messages : List (Message size)}
    (htook : receive.Took receiver deliveries reached)
    (hcalm : receive.breaksOver messages reached = false)
    (hviews : messages.map Message.view = further.map (Delivery.seen size)) :
    receive.Took receiver (deliveries ++ further) (receive.takeAll messages reached) := by
  obtain ⟨before, hbefore, rfl, hfirst⟩ := htook
  refine ⟨before ++ messages, ?_, receive.takeAll_append before messages receiver, ?_⟩
  · rw [Receiver.breaksOver_append, hbefore, hcalm, Bool.or_false]
  · rw [List.map_append, List.map_append, hfirst, hviews]

namespace CaptureState

/-- What a pass hands over when the receiver does not break down: what waits, and a report if calls were
refused. -/
def due (state : CaptureState size capacity σ) : List Delivery :=
  (state.capture.queue.waiting.map Message.view).map .call ++
    if state.capture.queue.dropped = 0 then []
    else [.report state.clock.now state.capture.dropped]

/-- What some steps hand over when the receiver does not break down. -/
def handedOver (receive : Receiver size σ) :
    List CaptureStep → CaptureState size capacity σ → List Delivery
  | [], _ => []
  | step :: rest, state =>
      (if step = .pass then state.due else []) ++
        handedOver receive rest (state.step receive step)

theorem map_seen_due (state : CaptureState size capacity σ) :
    state.due.map (Delivery.seen size) = state.flow.queue.waiting.map Message.view ++
      if state.flow.queue.dropped = 0 then [] else [state.flow.fittedReport] := by
  rw [due, List.map_append, Delivery.map_seen_call, Flow.fittedReport_eq_seen,
    apply_ite (List.map (Delivery.seen size))]
  rfl

theorem filterMap_call?_due (state : CaptureState size capacity σ) :
    state.due.filterMap Delivery.call? = state.capture.queue.waiting.map Message.view := by
  rw [due, List.filterMap_append, Delivery.filterMap_call]
  split <;> simp [Delivery.call?]

/-! ## While the worker runs -/

/-- What a capture has accepted has been handed over, in order, or waits. -/
structure Tallies (deliveries : List Delivery) (accepted : List View)
    (state : CaptureState size capacity σ) : Prop where
  /-- No push and no pop is in progress. -/
  idle : state.capture.queue.Idle
  /-- No accepted call is lost, handed over twice or out of its turn. -/
  accepted_eq : accepted =
    deliveries.filterMap Delivery.call? ++ state.capture.queue.waiting.map Message.view

/-- A capture whose worker runs. -/
structure Serves (receive : Receiver size σ) (receiver : σ) (deliveries : List Delivery)
    (accepted : List View) (state : CaptureState size capacity σ) : Prop
    extends state.Tallies deliveries accepted where
  /-- The worker runs. -/
  running : state.capture.worker.thread = .running
  /-- The worker has the name that it was started with. -/
  name_eq : state.capture.worker.name = Capture.workerName
  /-- The receiver has taken what has been handed over. -/
  took : receive.Took receiver deliveries state.receiver

/-- A capture whose receiver has broken down over a message that waited. -/
structure Stopped (receive : Receiver size σ) (receiver : σ) (deliveries : List Delivery)
    (reached : σ) (bad : Message size) (accepted : List View)
    (state : CaptureState size capacity σ) : Prop
    extends state.Tallies deliveries accepted where
  /-- The worker does not run. -/
  stopped : state.capture.worker.isRunning = false
  /-- The receiver has taken what has been handed over before. -/
  took : receive.Took receiver deliveries reached
  /-- Then it has broken down over a message, and has got nothing since. -/
  broke : receive bad reached = (state.receiver, true)
  /-- This message waits before all others. -/
  first_eq : state.capture.queue.waiting.head? = some bad

variable {receive : Receiver size σ} {receiver reached : σ} {bad : Message size}
  {state : CaptureState size capacity σ} {deliveries : List Delivery} {accepted : List View}

theorem Tallies.log (htallies : state.Tallies deliveries accepted) (receive : Receiver size σ)
    (level : Level) (payload : Payload) :
    (state.step receive (.log level payload)).Tallies deliveries
      (accepted ++ (state.capture.accepts? state.clock level payload).toList) := by
  obtain ⟨hidle, more, hwaiting, hmore⟩ :=
    (Capture.logged htallies.idle state.clock level payload).waiting_eq htallies.idle
  refine ⟨hidle, ?_⟩
  change _ = _ ++ (state.capture.log state.clock level payload).1.queue.waiting.map Message.view
  rw [hwaiting, List.map_append, hmore, htallies.accepted_eq, List.append_assoc]

theorem Tallies.setLevel (htallies : state.Tallies deliveries accepted)
    (receive : Receiver size σ) (levelText : String) :
    (state.step receive (.setLevel levelText)).Tallies deliveries (accepted ++ []) :=
  ⟨htallies.idle, (List.append_nil accepted).trans htallies.accepted_eq⟩

theorem Tallies.passed (htallies : state.Tallies deliveries accepted) (thread : ThreadState)
    {flow : Flow size capacity σ} (hidle : flow.queue.Idle) (hempty : flow.queue.waiting = []) :
    (state.passed thread flow).Tallies (deliveries ++ state.due) accepted := by
  refine ⟨hidle, ?_⟩
  change accepted = _ ++ flow.queue.waiting.map Message.view
  rw [hempty, List.filterMap_append, filterMap_call?_due, htallies.accepted_eq, List.map_nil,
    List.append_nil]

theorem serves_start (hcapacity : IsCapacity capacity) (hsize : 0 < size) (period : Duration)
    (levelText : String) (clock : Clock) (receive : Receiver size σ) (receiver : σ) :
    Serves receive receiver [] []
      ⟨(Capture.start hcapacity hsize period levelText).1, clock, receiver⟩ where
  idle := Queue.idle_new hcapacity _
  accepted_eq :=
    (congrArg (List.map Message.view) (Queue.waiting_new hcapacity (Message.blank hsize))).symm
  running := rfl
  name_eq := rfl
  took := ⟨[], rfl, rfl, rfl⟩

/-- After a pass of a worker that goes on running, everything accepted has been handed over. -/
theorem Serves.pass (hserves : state.Serves receive receiver deliveries accepted)
    (hrunning : (state.step receive .pass).capture.worker.isRunning = true) :
    (state.step receive .pass).Serves receive receiver (deliveries ++ state.due) accepted := by
  have hflow : state.flow.queue.Idle := hserves.idle
  have hdrained := Flow.drained receive hflow
  have hviews := state.map_seen_due
  rw [pass_of_running hserves.running] at hrunning ⊢
  generalize Flow.drain receive state.flow = done at hdrained hrunning ⊢
  cases hdrained with
  | silent queue hcalm hnone hidle hempty =>
      rw [if_pos hnone, List.append_nil] at hviews
      exact ⟨hserves.toTallies.passed .running hidle hempty, rfl, hserves.name_eq,
        hserves.took.more hcalm hviews.symm⟩
  | reported queue message hcalm hsome hview hidle hempty =>
      rw [if_neg hsome, ← hview, ← List.map_singleton, ← List.map_append] at hviews
      have hspared : (receive message
          (receive.takeAll state.flow.queue.waiting state.flow.receiver)).2 = false := by
        by_contra hbroke
        rw [Bool.not_eq_false] at hbroke
        rw [if_pos hbroke] at hrunning
        exact absurd hrunning (by simp [CaptureState.passed, Worker.isRunning])
      have hboth : receive.breaksOver (state.flow.queue.waiting ++ [message]) state.receiver =
          false := by
        rw [Receiver.breaksOver_append, Bool.or_eq_false_iff]
        exact ⟨hcalm, (Bool.or_false _).trans hspared⟩
      rw [hspared]
      exact ⟨hserves.toTallies.passed .running hidle hempty, rfl, hserves.name_eq,
        hserves.took.more hboth hviews.symm⟩
  | stopped => exact absurd hrunning (by simp [CaptureState.passed, Worker.isRunning])

theorem isRunning_of_step (step : CaptureStep)
    (hrunning : (state.step receive step).capture.worker.isRunning = true) :
    state.capture.worker.isRunning = true := by
  cases step with
  | log level payload =>
      change (state.capture.log state.clock level payload).1.worker.isRunning = true at hrunning
      rwa [Capture.worker_log] at hrunning
  | setLevel levelText => exact hrunning
  | pass =>
      cases hstopped : state.capture.worker.isRunning with
      | true => rfl
      | false =>
          rw [pass_of_stopped hstopped] at hrunning
          exact hstopped.symm.trans hrunning

theorem isRunning_of_run {steps : List CaptureStep}
    (hrunning : (state.run receive steps).capture.worker.isRunning = true) :
    state.capture.worker.isRunning = true := by
  induction steps generalizing state with
  | nil => exact hrunning
  | cons step rest induction => exact isRunning_of_step step (induction hrunning)

theorem Serves.step (hserves : state.Serves receive receiver deliveries accepted)
    (step : CaptureStep)
    (hrunning : (state.step receive step).capture.worker.isRunning = true) :
    (state.step receive step).Serves receive receiver
      (deliveries ++ if step = .pass then state.due else [])
      (accepted ++ ((CaptureAct.step step).accepts? state).toList) := by
  cases step with
  | log level payload =>
      rw [if_neg (by simp), List.append_nil]
      refine ⟨hserves.toTallies.log receive level payload, ?_, ?_, hserves.took⟩
      · exact (congrArg Worker.thread (Capture.worker_log _ _ _ _)).trans hserves.running
      · exact (congrArg Worker.name (Capture.worker_log _ _ _ _)).trans hserves.name_eq
  | setLevel levelText =>
      rw [if_neg (by simp), List.append_nil]
      exact ⟨hserves.toTallies.setLevel receive levelText, hserves.running, hserves.name_eq,
        hserves.took⟩
  | pass =>
      rw [if_pos rfl, CaptureAct.accepts?, Option.toList_none, List.append_nil]
      exact hserves.pass hrunning

theorem Serves.run (hserves : state.Serves receive receiver deliveries accepted)
    (steps : List CaptureStep)
    (hrunning : (state.run receive steps).capture.worker.isRunning = true) :
    (state.run receive steps).Serves receive receiver
      (deliveries ++ state.handedOver receive steps)
      (accepted ++ state.accepted receive (steps.map .step)) := by
  induction steps generalizing state deliveries accepted with
  | nil =>
      rw [List.map_nil, CaptureState.accepted, handedOver, List.append_nil, List.append_nil]
      exact hserves
  | cons step rest induction =>
      have hrest := induction (hserves.step step (isRunning_of_run hrunning)) hrunning
      rwa [List.append_assoc, List.append_assoc] at hrest

/-! ## The breakdown -/

/-- What has become of the thread after the last pass that an act asked for. -/
def lastThread : CaptureAct → ThreadState
  | .step _ => .brokeDown
  | .shutdown => .joined

/-- The breakdown is reported by the act that joins the thread. -/
theorem apply_of_broken (hrunning : state.capture.worker.thread = .running) {fatal : CaptureAct}
    (hfatal : fatal.asksPass = true) {left : Flow size capacity σ}
    (hdrain : Flow.drain receive state.flow = (left, true)) :
    fatal.apply receive state = state.passed (lastThread fatal) left ∧
      (fatal.answer receive state).events =
        if fatal = .shutdown then [.workerBrokeDown state.capture.worker.name] else [] := by
  cases fatal with
  | step step =>
      cases step with
      | log level payload => exact absurd hfatal Bool.false_ne_true
      | setLevel levelText => exact absurd hfatal Bool.false_ne_true
      | pass =>
          refine ⟨?_, rfl⟩
          rw [CaptureAct.apply, pass_of_running hrunning, hdrain]
          rfl
  | shutdown =>
      refine ⟨?_, ?_⟩
      · rw [CaptureAct.apply, shutdown_of_running hrunning, hdrain]
        rfl
      · have hopen : ¬state.capture.worker.thread = .joined := by simp [hrunning]
        have hrun : state.capture.worker.isRunning = true := by simp [Worker.isRunning, hrunning]
        have hlast : Flow.drain receive ⟨state.capture.queue, state.clock, state.receiver⟩ =
          (left, true) := hdrain
        rw [if_pos rfl, CaptureAct.answer, CaptureAnswer.events]
        simp only [Capture.shutdown, Worker.stop, if_neg hopen, Worker.pass, hrun, if_true, hlast]
        rfl

/-- The message that the receiver breaks down over is the first that waits from now on; those before it have
been handed over. -/
theorem Serves.breaks (hserves : state.Serves receive receiver deliveries accepted)
    {fatal : CaptureAct} (hfatal : fatal.asksPass = true)
    (hbreaks : receive.breaksOver state.capture.queue.waiting state.receiver = true) :
    ∃ front bad back reached, state.capture.queue.waiting = front ++ bad :: back ∧
      (fatal.apply receive state).Stopped receive receiver
        (deliveries ++ (front.map Message.view).map .call) reached bad accepted := by
  have hflow : state.flow.queue.Idle := hserves.idle
  have hover : receive.breaksOver state.flow.queue.waiting state.flow.receiver = true := hbreaks
  obtain ⟨queue, front, bad, back, hwaiting, hcalm, hbad, hdrain, hidle, hkept, -⟩ :=
    Flow.drain_broken hover hflow
  obtain ⟨happly, -⟩ := apply_of_broken hserves.running hfatal hdrain
  have hviews := (Delivery.map_seen_call size (front.map Message.view)).symm
  refine ⟨front, bad, back, receive.takeAll front state.receiver, hwaiting, ?_⟩
  rw [happly]
  refine ⟨⟨hidle, ?_⟩, ?_, hserves.took.more hcalm hviews, ?_, congrArg List.head? hkept⟩
  · change accepted = _ ++ queue.waiting.map Message.view
    rw [hkept, List.filterMap_append, Delivery.filterMap_call, List.append_assoc, ← List.map_append,
      ← hwaiting]
    exact hserves.accepted_eq
  · cases fatal <;> rfl
  · change _ = (receive.takeAll (front ++ [bad]) state.receiver, true)
    rw [Receiver.takeAll_append]
    exact Prod.ext rfl hbad

/-! ## After the breakdown -/

/-- Stopping a worker that does not run joins its thread and nothing else. -/
theorem shutdown_of_stopped (hstopped : state.capture.worker.isRunning = false) :
    state.shutdown receive = state.passed .joined state.flow ∧
      (CaptureAct.shutdown.answer receive state).events =
        if state.capture.worker.thread = .brokeDown then
          [.workerBrokeDown state.capture.worker.name]
        else [] := by
  rw [shutdown, CaptureAct.answer, CaptureAnswer.events]
  cases hthread : state.capture.worker.thread with
  | running => exact absurd hstopped (by simp [Worker.isRunning, hthread])
  | brokeDown =>
      have hopen : ¬state.capture.worker.thread = .joined := by simp [hthread]
      have hfarewell : state.capture.worker.farewell =
          .workerBrokeDown state.capture.worker.name := by
        rw [Worker.farewell, hstopped, if_neg Bool.false_ne_true]
      simp only [Capture.shutdown, Worker.stop, if_neg hopen, Worker.pass, hstopped, hfarewell,
        Bool.false_eq_true, if_false, if_true]
      exact ⟨rfl, trivial⟩
  | joined =>
      simp only [Capture.shutdown, Worker.stop, hthread, if_true]
      refine ⟨?_, rfl⟩
      rw [passed, ← hthread]
      rfl

theorem Stopped.apply (hstopped : state.Stopped receive receiver deliveries reached bad accepted)
    (act : CaptureAct) :
    (act.apply receive state).Stopped receive receiver deliveries reached bad
      (accepted ++ (act.accepts? state).toList) := by
  cases act with
  | step step =>
      cases step with
      | log level payload =>
          obtain ⟨-, more, hwaiting, -⟩ :=
            (Capture.logged hstopped.idle state.clock level payload).waiting_eq hstopped.idle
          refine ⟨hstopped.toTallies.log receive level payload, ?_, hstopped.took, hstopped.broke, ?_⟩
          · exact (congrArg Worker.isRunning (Capture.worker_log _ _ _ _)).trans hstopped.stopped
          · change (state.capture.log state.clock level payload).1.queue.waiting.head? = some bad
            rw [hwaiting, List.head?_append, hstopped.first_eq, Option.some_or]
      | setLevel levelText =>
          exact ⟨hstopped.toTallies.setLevel receive levelText, hstopped.stopped, hstopped.took,
            hstopped.broke, hstopped.first_eq⟩
      | pass =>
          rw [CaptureAct.apply, pass_of_stopped hstopped.stopped, CaptureAct.accepts?,
            Option.toList_none, List.append_nil]
          exact hstopped
  | shutdown =>
      rw [CaptureAct.apply, (shutdown_of_stopped hstopped.stopped).1, CaptureAct.accepts?,
        Option.toList_none, List.append_nil]
      exact ⟨⟨hstopped.idle, hstopped.accepted_eq⟩, rfl, hstopped.took, hstopped.broke,
        hstopped.first_eq⟩

theorem Stopped.perform (hstopped : state.Stopped receive receiver deliveries reached bad accepted)
    (acts : List CaptureAct) :
    (state.perform receive acts).Stopped receive receiver deliveries reached bad
      (accepted ++ state.accepted receive acts) := by
  induction acts generalizing state accepted with
  | nil =>
      rw [CaptureState.accepted, List.append_nil]
      exact hstopped
  | cons act rest induction =>
      have hrest := induction (hstopped.apply act)
      rwa [List.append_assoc] at hrest

/-- Once the worker does not run, the breakdown is reported when the thread is joined. -/
theorem events_of_stopped (hstopped : state.capture.worker.isRunning = false)
    (acts : List CaptureAct) :
    state.events receive acts =
      if state.capture.worker.thread = .brokeDown ∧ .shutdown ∈ acts then
        [.workerBrokeDown state.capture.worker.name]
      else [] := by
  induction acts generalizing state with
  | nil => simp [events, answers]
  | cons act rest induction =>
      rw [events_cons]
      cases act with
      | step step =>
          have hworker : ((CaptureAct.step step).apply receive state).capture.worker =
              state.capture.worker := by
            cases step with
            | log level payload => exact Capture.worker_log _ _ _ _
            | setLevel levelText => rfl
            | pass => exact congrArg (fun state => state.capture.worker) (pass_of_stopped hstopped)
          have hsilent : ((CaptureAct.step step).answer receive state).events = [] := by
            cases step <;> rfl
          rw [hsilent, induction ((congrArg Worker.isRunning hworker).trans hstopped), hworker]
          simp
      | shutdown =>
          obtain ⟨hjoined, hevents⟩ := @shutdown_of_stopped _ _ _ receive state hstopped
          have happly : CaptureAct.shutdown.apply receive state = state.passed .joined state.flow :=
            hjoined
          rw [hevents, happly, induction rfl]
          simp [passed]

/-- A breakdown is reported once, when the worker is stopped. -/
theorem Serves.events_of_breaks (hserves : state.Serves receive receiver deliveries accepted)
    {fatal : CaptureAct} (hfatal : fatal.asksPass = true)
    (hbreaks : receive.breaksOver state.capture.queue.waiting state.receiver = true)
    (later : List CaptureAct) :
    state.events receive (fatal :: later) =
      if .shutdown ∈ fatal :: later then [.workerBrokeDown Capture.workerName] else [] := by
  have hflow : state.flow.queue.Idle := hserves.idle
  have hover : receive.breaksOver state.flow.queue.waiting state.flow.receiver = true := hbreaks
  obtain ⟨queue, front, bad, back, -, -, -, hdrain, -⟩ := Flow.drain_broken hover hflow
  obtain ⟨happly, hevents⟩ := apply_of_broken hserves.running hfatal hdrain
  let left : Flow size capacity σ :=
    ⟨queue, state.flow.clock, receive.takeAll (front ++ [bad]) state.flow.receiver⟩
  have hstopped : (state.passed (lastThread fatal) left).capture.worker.isRunning = false := by
    cases fatal <;> rfl
  have hlater := @events_of_stopped _ _ _ receive _ hstopped later
  rw [events_cons, hevents, happly, hlater, hserves.name_eq]
  have hname : (state.passed (lastThread fatal) left).capture.worker.name = Capture.workerName :=
    hserves.name_eq
  rw [hname]
  cases fatal <;> simp [passed, lastThread]

theorem Stopped.pending_eq
    (hstopped : state.Stopped receive receiver deliveries reached bad accepted) :
    state.capture.pending + (deliveries.filterMap Delivery.call?).length = accepted.length := by
  rw [hstopped.accepted_eq, Capture.pending_eq, List.length_append, List.length_map, Nat.add_comm]

end CaptureState

/-- A capture survives its receiver. Whatever was done before, let the receiver break down over a message that
waits, in a pass or in the last pass when the worker is stopped. Whatever is done then, the receiver has taken
the calls before this message, once and in order, and reports between them; it has broken down over this
message and has got nothing since. This message and everything accepted behind it wait. Calls are accepted
while there is room and counted as refused otherwise, the worker does not run, and the breakdown is reported
once, when the worker is stopped. -/
theorem Capture.stops_cleanly (hcapacity : IsCapacity capacity) (hsize : 0 < size)
    (period : Duration) (levelText : String) (clock : Clock) (receive : Receiver size σ)
    (receiver : σ) (before : List CaptureStep) (fatal : CaptureAct) (later : List CaptureAct) :
    let start : CaptureState size capacity σ :=
      ⟨(Capture.start hcapacity hsize period levelText).1, clock, receiver⟩
    let used := start.run receive before
    let broken := fatal.apply receive used
    let final := broken.perform receive later
    let accepted := start.accepted receive (before.map .step ++ fatal :: later)
    used.capture.worker.isRunning = true → fatal.asksPass = true →
    receive.breaksOver used.capture.queue.waiting used.receiver = true →
      (∃ front bad back reached,
        let deliveries := start.handedOver receive before ++ (front.map Message.view).map .call
        used.capture.queue.waiting = front ++ bad :: back ∧
        final.Stopped receive receiver deliveries reached bad accepted ∧
        final.capture.pending + (deliveries.filterMap Delivery.call?).length = accepted.length) ∧
      final.receiver = broken.receiver ∧
      (∀ level payload, final.capture.isEnabled level = true →
        let logged := (final.capture.log final.clock level payload).1
        (final.capture.pending < capacity → (payload.fill (size - 1)).ending ≠ .brokeDown →
          final.capture.accepts? final.clock level payload =
              some ⟨level, final.clock.now, payload.kept (size - 1)⟩ ∧
            logged.pending = final.capture.pending + 1 ∧
            logged.dropped = final.capture.dropped) ∧
        (capacity ≤ final.capture.pending →
          final.capture.accepts? final.clock level payload = none ∧
            logged.pending = final.capture.pending ∧
            logged.dropped = (final.capture.dropped + 1) % 2 ^ 32)) ∧
      final.capture.worker.isRunning = false ∧
      used.events receive (fatal :: later) =
        if .shutdown ∈ fatal :: later then [.workerBrokeDown Capture.workerName] else [] := by
  intro start used broken final accepted hrunning hfatal hbreaks
  have hserves := (CaptureState.serves_start hcapacity hsize period levelText clock receive
    receiver).run before hrunning
  rw [List.nil_append, List.nil_append] at hserves
  obtain ⟨front, bad, back, reached, hwaiting, hbroken⟩ := hserves.breaks hfatal hbreaks
  have hnone : fatal.accepts? used = none := by
    rcases fatal with (_ | _ | _) | _
    · exact absurd hfatal Bool.false_ne_true
    · rfl
    · rfl
    · rfl
  have haccepted : accepted =
      start.accepted receive (before.map .step) ++ broken.accepted receive later := by
    simp only [accepted, CaptureState.accepted_append, CaptureState.perform_steps,
      CaptureState.accepted]
    change _ ++ ((fatal.accepts? used).toList ++ _) = _
    rw [hnone]
    rfl
  have hfinal := hbroken.perform later
  rw [← haccepted] at hfinal
  have hlast : broken.receiver = final.receiver :=
    congrArg Prod.fst (hbroken.broke.symm.trans hfinal.broke)
  refine ⟨⟨front, bad, back, reached, hwaiting, hfinal, hfinal.pending_eq⟩, hlast.symm, ?_,
    hfinal.stopped, ?_⟩
  · intro level payload henabled
    exact ⟨fun hroom hending => Capture.log_of_room hfinal.idle henabled hroom hending,
      fun hfull => Capture.log_of_full hfinal.idle henabled hfull⟩
  · exact hserves.events_of_breaks hfatal hbreaks later

/-- The receiver breaks down over the third of three calls; the first behind it is accepted, the second finds
the queue full. -/
theorem Capture.stops_over_third :
    let receive : Receiver 8 (List View) := fun message taken =>
      (taken ++ [message.view], message.text == "bad")
    let start : CaptureState 8 2 (List View) :=
      ⟨(Capture.start (by decide) (by decide) (.ofMillis 50) "info").1, .steady 0 1, []⟩
    let used := start.run receive
      [.log .info (.ofText "a"), .pass, .log .info (.ofText "b"), .log .error (.ofText "bad")]
    let later : List CaptureAct :=
      [.step (.log .info (.ofText "c")), .shutdown, .step (.log .info (.ofText "d")), .shutdown]
    let broken := (CaptureAct.step .pass).apply receive used
    let final := broken.perform receive later
    used.capture.worker.isRunning = true ∧ (CaptureAct.step .pass).asksPass = true ∧
      receive.breaksOver used.capture.queue.waiting used.receiver = true ∧
      final.receiver = [⟨.info, ⟨0⟩, "a"⟩, ⟨.info, ⟨1⟩, "b"⟩, ⟨.error, ⟨2⟩, "bad"⟩] ∧
      final.capture.pending = 2 ∧ final.capture.dropped = 1 ∧
      used.events receive (.step .pass :: later) = [.workerBrokeDown "rtlog-drain"] := by
  intro receive start used later broken final
  have hrunning : used.capture.worker.isRunning = true := by decide +kernel
  have hbreaks : receive.breaksOver used.capture.queue.waiting used.receiver = true := by
    decide +kernel
  obtain ⟨-, hreceiver, -, -, hevents⟩ :=
    Capture.stops_cleanly (by decide) (by decide) (.ofMillis 50) "info" (.steady 0 1) receive []
      [.log .info (.ofText "a"), .pass, .log .info (.ofText "b"), .log .error (.ofText "bad")]
      (.step .pass) later hrunning rfl hbreaks
  refine ⟨hrunning, rfl, hbreaks, ?_, by decide +kernel, by decide +kernel, hevents⟩
  rw [hreceiver]
  decide +kernel

end LogRelay
