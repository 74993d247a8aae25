import LogRelay.Proofs.Session.Journal

/-!
# A session and its journal

Whatever is done to a session, its sink has been told the lines of a journal and its capture holds the
backlog of that journal. Flushing and stopping the workers leave the journal alone, apart from the last pass.
What a session stands on, its claim and the names held, stays as it is.
-/

namespace LogRelay

theorem Level.parseOrInfo_name (level : Level) : Level.parseOrInfo level.name = level := by
  cases level <;> decide +kernel

theorem Clock.IsSpelled.tickIf {clock : Clock} (hspelled : clock.IsSpelled) (read : Bool) :
    (clock.tickIf read).IsSpelled := by
  cases read <;> exact hspelled

theorem Clock.IsSpelled.now {clock : Clock} (hspelled : clock.IsSpelled) : clock.now.IsSpelled :=
  hspelled clock.taken

theorem Journal.map_posting_dueLines (journal : Journal) :
    journal.dueLines.map Line.posting =
      if journal.closed then []
      else
        (((journal.backlog.due journal.clock.now).map Delivery.view).map
          (View.posting ⟨journal.process, journal.drainer⟩)).filter
            (Posting.reaches journal.threshold) := by
  rw [dueLines]
  split
  · rfl
  · rw [List.filter_map, List.map_map, List.filter_map, List.filter_map, List.map_map]
    rfl

namespace Session

/-- What a session stands on. -/
structure Footing where
  /-- The sink as it was opened. -/
  opened : SinkState
  /-- The claim on the name. -/
  claim : Claim
  /-- The names held. -/
  registry : Registry

variable {footing : Footing} {journal : Journal} {state : Hosted Session}

/-- A session whose sink has been told the lines of a journal. -/
structure Ready (footing : Footing) (journal : Journal) (state : Hosted Session) : Prop where
  /-- The sink has been told the lines. -/
  told : footing.opened.Told (journal.lines.map Line.posting) (sinkState state)
  /-- The sink wants the same records. -/
  threshold_eq : state.item.sink.threshold = journal.threshold
  /-- The clock is the same. -/
  clock_eq : state.host.clock = journal.clock
  /-- The process is the same. -/
  process_eq : state.host.process = journal.process
  /-- The claim is the same. -/
  claim_eq : state.item.claim = footing.claim
  /-- The same names are held. -/
  registry_eq : state.host.registry = footing.registry
  /-- Every reading of the clock can be spelled. -/
  spelled : journal.clock.IsSpelled

/-- A session in use, whose capture holds the backlog of a journal. -/
structure Keeps (footing : Footing) (journal : Journal) (state : Hosted Session) : Prop
    extends Ready footing journal state where
  /-- The capture holds the backlog. -/
  capture : state.item.capture.Keeps journal.backlog
  /-- The same thread relays. -/
  drainer_eq : state.item.drainThread = journal.drainer
  /-- The times of the messages waiting can be spelled. -/
  waiting_spelled : ∀ view ∈ journal.backlog.waiting, view.time.IsSpelled

/-! ## The clock of a session -/

theorem reading_drain {size capacity : Nat} {σ : Type} (receive : Receiver size σ)
    (flow : Flow size capacity σ) :
    (Flow.drain receive flow).1.clock.reading = flow.clock.reading :=
  Flow.kept_drain (fun clock _ => clock.reading) (fun _ _ _ => rfl) (fun _ _ => rfl) flow

theorem reading_stopDrain (closed : Bool) (state : Hosted Session) :
    (stopDrain closed state).host.clock.reading = state.host.clock.reading := by
  simp only [stopDrain, Capture.shutdown, Worker.stop, Worker.pass]
  split
  · rfl
  · split
    · exact reading_drain _ _
    · rfl

theorem reading_stopFlusher (state : Hosted Session) :
    (stopFlusher state).host.clock.reading = state.host.clock.reading := by
  rw [stopFlusher]
  cases state.item.flusher <;> rfl

theorem clock_conclude (state : Hosted Session) (written : SinkState × WriteResult) :
    (conclude state written).1.host.clock = state.host.clock := by
  rw [conclude]
  cases written.2 <;> rfl

theorem reading_write (thread : Nat) (severity : Severity) (payload : Payload)
    (state : Hosted Session) :
    (write thread severity payload state).1.host.clock.reading = state.host.clock.reading := by
  rw [write]
  split
  · split
    · rw [writeText, clock_conclude]
      rfl
    · rfl
  · rfl

/-! ## The sink of a session -/

theorem Ready.putSink (hready : Ready footing journal state) {lines : List Line}
    {changed : SinkState} (htold : footing.opened.Told (lines.map Line.posting) changed)
    (hthreshold : changed.sink.threshold = state.item.sink.threshold) :
    Ready footing { journal with lines := lines } (putSink state changed) :=
  ⟨htold, hthreshold.trans hready.threshold_eq, hready.clock_eq, hready.process_eq,
    hready.claim_eq, hready.registry_eq, hready.spelled⟩

theorem capture_putSink (state : Hosted Session) (changed : SinkState) :
    (Session.putSink state changed).item.capture = state.item.capture := rfl

theorem drainThread_putSink (state : Hosted Session) (changed : SinkState) :
    (Session.putSink state changed).item.drainThread = state.item.drainThread := rfl

theorem Ready.report (hready : Ready footing journal state) (event : Event) :
    Ready footing journal (state.report event) :=
  ⟨hready.told.report event, hready.threshold_eq, hready.clock_eq, hready.process_eq,
    hready.claim_eq, hready.registry_eq, hready.spelled⟩

theorem Ready.reportAll (hready : Ready footing journal state) (events : List Event) :
    Ready footing journal { state with host := state.host.reportAll events } := by
  refine ⟨hready.told.of_quiet rfl fun kind => ?_, hready.threshold_eq, hready.clock_eq,
    hready.process_eq, hready.claim_eq, hready.registry_eq, hready.spelled⟩
  change Event.count kind state.host.events ≤ Event.count kind (state.host.events ++ events.toArray)
  rw [Event.count_append]
  exact Nat.le_add_right _ _

theorem conclude_write (origin : Origin) {record : Record} (hrange : record.time.civil.InRange)
    (state : Hosted Session) :
    conclude state ((sinkState state).write origin record) =
      (Session.putSink state ((sinkState state).tell (.recordFailed state.item.sink.name)
        (.write origin record)), false) := by
  have hcalm := (sinkState state).write_ne_brokeDown origin hrange
  rw [SinkState.tell, SinkState.faultOf?, SinkState.call, conclude]
  cases hresult : ((sinkState state).write origin record).2 with
  | done => rfl
  | refused fault => rfl
  | brokeDown => exact absurd hresult hcalm

/-- A session whose clock has been read. -/
def tick (state : Hosted Session) : Hosted Session :=
  { state with host := { state.host with clock := state.host.clock.tick } }

theorem writeText_eq_tell (thread : Nat) (severity : Severity) (text : String)
    {state : Hosted Session} (hspelled : state.host.clock.IsSpelled) :
    writeText thread severity text state =
      (Session.putSink (tick state) ((sinkState state).tell (.recordFailed state.item.sink.name)
        (.write ⟨state.host.process, thread⟩
          ⟨severity, text, .ofDuration state.host.clock.now⟩)), false) :=
  @conclude_write ⟨state.host.process, thread⟩
    ⟨severity, text, .ofDuration state.host.clock.now⟩ hspelled.now.2 (tick state)

/-- What a call of a thread does to a session: its posting, if it has one, is told to the sink. -/
theorem Ready.write_eq (hready : Ready footing journal state) (thread : Nat) (call : LogCall) :
    (write thread call.severity call.payload state).1 =
      match journal.posting? thread call with
      | none => state
      | some posting =>
          Session.putSink (tick state) ((sinkState state).tell
            (.recordFailed state.item.sink.name) (.write posting.origin posting.record)) := by
  have hclock : state.host.clock.IsSpelled := by
    rw [hready.clock_eq]
    exact hready.spelled
  have hwants : state.item.sink.wants call.severity = call.severity.reaches journal.threshold := by
    rw [Sink.wants, hready.threshold_eq]
  rw [Session.write, Journal.posting?, hwants]
  cases call.severity.reaches journal.threshold with
  | false => rfl
  | true =>
      cases htext : call.payload.text? with
      | none => rfl
      | some text =>
          simp only [if_true, Option.map_some]
          rw [writeText_eq_tell _ _ _ hclock, hready.process_eq, hready.clock_eq]

/-- A call of a thread is written at once, as the journal says. -/
theorem Ready.write (hready : Ready footing journal state) {line : Posting → Line}
    (hline : ∀ posting, (line posting).posting = posting) (thread : Nat) (call : LogCall) :
    let next := (write thread call.severity call.payload state).1
    Ready footing (journal.write line thread call) next ∧
      next.item.capture = state.item.capture ∧ next.item.drainThread = state.item.drainThread := by
  intro next
  have hwrite := hready.write_eq thread call
  cases hposting : journal.posting? thread call with
  | none =>
      rw [hposting] at hwrite
      have hnext : next = state := hwrite
      rw [hnext, Journal.write_of_none hposting line]
      exact ⟨hready, rfl, rfl⟩
  | some posting =>
      rw [hposting] at hwrite
      have hnext : next = Session.putSink (tick state) ((sinkState state).tell
          (.recordFailed state.item.sink.name) (.write posting.origin posting.record)) := hwrite
      have hticked : Ready footing { journal with clock := journal.clock.tick } (tick state) :=
        ⟨hready.told, hready.threshold_eq, congrArg Clock.tick hready.clock_eq, hready.process_eq,
          hready.claim_eq, hready.registry_eq, hready.spelled⟩
      have hspelled : (SinkCall.write posting.origin posting.record).IsSpelled := by
        change posting.record.time.civil.InRange
        rw [Journal.time_of_posting? hposting]
        exact hready.spelled.now.2
      have htold := hready.told.tell hspelled fun fault =>
        (rfl : (Event.recordFailed state.item.sink.name fault).isLoss = true)
      have hlines : (journal.lines ++ [line posting]).map Line.posting =
          journal.lines.map Line.posting ++
            (SinkCall.write posting.origin posting.record).posting?.toList := by
        rw [List.map_append, List.map_singleton, hline]
        rfl
      rw [← hlines] at htold
      rw [hnext, Journal.write_of_some hposting line]
      exact ⟨hticked.putSink htold (SinkState.threshold_tell _ _ _), capture_putSink _ _,
        drainThread_putSink _ _⟩

theorem flush_eq_tell (event : IoFault → Event) (state : Hosted Session) :
    (match (flush state).2 with
      | some fault => (flush state).1.report (event fault)
      | none => (flush state).1) =
      Session.putSink state ((sinkState state).tell event .flush) := by
  rw [SinkState.tell, SinkState.faultOf?, SinkState.call, Session.flush]
  simp only
  cases (sinkState state).flush.2 <;> rfl

theorem flushJob_eq_tell (state : SinkState) :
    flushJob state = (state.tell (.periodicFlushFailed state.sink.name) .flush, false) := by
  rw [flushJob, SinkState.tell, SinkState.faultOf?, SinkState.call]
  cases state.flush.2 <;> rfl

theorem Ready.flush (hready : Ready footing journal state) {event : IoFault → Event}
    (hevent : ∀ fault, (event fault).isLoss = true) :
    Ready footing journal (Session.putSink state ((sinkState state).tell event .flush)) :=
  hready.putSink (hready.told.flush hevent) (SinkState.threshold_tell _ _ _)

theorem Ready.setFlusher (hready : Ready footing journal state) (flusher : Option Worker) :
    Ready footing journal (state.map fun session => { session with flusher := flusher }) :=
  ⟨hready.told, hready.threshold_eq, hready.clock_eq, hready.process_eq, hready.claim_eq,
    hready.registry_eq, hready.spelled⟩

theorem Ready.periodicFlush (hready : Ready footing journal state) :
    Ready footing journal (periodicFlush state) ∧
      (Session.periodicFlush state).item.capture = state.item.capture ∧
      (Session.periodicFlush state).item.drainThread = state.item.drainThread := by
  rw [Session.periodicFlush]
  cases state.item.flusher with
  | none => exact ⟨hready, rfl, rfl⟩
  | some flusher =>
      refine ⟨?_, rfl, rfl⟩
      simp only [Worker.pass, flushJob_eq_tell, Bool.false_eq_true, if_false]
      split
      · exact (hready.setFlusher (some flusher)).flush (fun _ => rfl)
      · exact hready.setFlusher (some flusher)

theorem Ready.stopFlusher (hready : Ready footing journal state) :
    Ready footing journal (stopFlusher state) := by
  rw [Session.stopFlusher]
  cases state.item.flusher with
  | none => exact hready
  | some flusher =>
      apply Ready.reportAll
      simp only [Worker.stop, Worker.pass, flushJob_eq_tell, Bool.false_eq_true, if_false]
      split
      · exact hready.setFlusher (some flusher)
      · split
        · exact (hready.setFlusher _).flush fun _ => rfl
        · exact hready.setFlusher _

/-! ## The capture of a session -/

theorem Keeps.of_ready (hkeeps : Keeps footing journal state) {journal' : Journal}
    {next : Hosted Session} (hready : Ready footing journal' next)
    (hbacklog : journal'.backlog = journal.backlog) (hdrainer : journal'.drainer = journal.drainer)
    (hcapture : next.item.capture = state.item.capture)
    (hthread : next.item.drainThread = state.item.drainThread) : Keeps footing journal' next := by
  refine ⟨hready, ?_, ?_, ?_⟩
  · rw [hcapture, hbacklog]
    exact hkeeps.capture
  · rw [hthread, hdrainer]
    exact hkeeps.drainer_eq
  · rw [hbacklog]
    exact hkeeps.waiting_spelled

/-- A session that starts has told its sink nothing, and nothing waits. -/
theorem keeps_start (period : Duration) (threshold : Severity) (options : SinkOptions)
    (claim : Claim) {state : Hosted Sink} (hspelled : state.host.clock.IsSpelled) :
    Keeps ⟨⟨state.item, state.host.files, state.host.events⟩, claim, state.host.registry⟩
      (.start threshold state.host.clock state.host.process (state.host.lastThread + 1))
      (start period threshold options claim state) := by
  let opened : SinkState := ⟨state.item, state.host.files, state.host.events⟩
  have hcapture : (start period threshold options claim state).item.capture =
      (Capture.start (by decide) (by decide) period threshold.toLevel.name).1 := by
    rw [start]
    simp only
    split <;> rfl
  have hkeeps := @Capture.keeps_start messageSize slotCount (by decide) (by decide) period
    threshold.toLevel.name
  rw [Level.parseOrInfo_name] at hkeeps
  have htold : opened.Told [] (sinkState (start period threshold options claim state)) := by
    rw [start]
    simp only
    split
    · exact (SinkState.told_nil opened).of_quiet rfl fun _ => Event.count_le_push _ _ _
    · exact (SinkState.told_nil opened).of_quiet rfl fun _ =>
        Nat.le_trans (Event.count_le_push _ _ _) (Event.count_le_push _ _ _)
  have hwaiting : ∀ view ∈ ([] : List View), view.time.IsSpelled :=
    fun view hmem => absurd hmem List.not_mem_nil
  have hsame : Ready ⟨opened, claim, state.host.registry⟩
      (.start threshold state.host.clock state.host.process (state.host.lastThread + 1))
      (start period threshold options claim state) := by
    refine ⟨htold, ?_, ?_, ?_, ?_, ?_, hspelled⟩ <;>
      · rw [start]
        simp only
        split <;> rfl
  refine ⟨hsame, ?_, ?_, hwaiting⟩
  · rw [hcapture]
    exact hkeeps
  · rw [start]
    simp only
    split <;> rfl

/-- A call is captured as the journal says. -/
theorem Keeps.enqueue (hkeeps : Keeps footing journal state) (level : Level) (payload : Payload) :
    Keeps footing (journal.capture level payload) (enqueue level payload state).1 := by
  obtain ⟨hcapture, hclock⟩ := hkeeps.capture.log state.host.clock level payload
  rw [hkeeps.clock_eq] at hcapture hclock
  have hnext : (Session.enqueue level payload state).1.host.clock =
      (state.item.capture.log journal.clock level payload).2.1 := by
    rw [← hkeeps.clock_eq]
    rfl
  have hstate : (Session.enqueue level payload state).1.item.capture =
      (state.item.capture.log journal.clock level payload).1 := by
    rw [← hkeeps.clock_eq]
    rfl
  refine ⟨⟨hkeeps.told, hkeeps.threshold_eq, hnext.trans hclock, hkeeps.process_eq,
    hkeeps.claim_eq, hkeeps.registry_eq, hkeeps.spelled.tickIf _⟩, ?_, hkeeps.drainer_eq, ?_⟩
  · rw [hstate]
    exact hcapture
  · intro view hmem
    simp only [Journal.capture, Backlog.log] at hmem
    split at hmem
    · split at hmem
      · exact hkeeps.waiting_spelled view hmem
      · split at hmem
        · exact hkeeps.waiting_spelled view hmem
        · rcases List.mem_append.1 hmem with hbefore | hlast
          · exact hkeeps.waiting_spelled view hbefore
          · rw [List.mem_singleton.1 hlast]
            exact hkeeps.spelled.now
    · exact hkeeps.waiting_spelled view hmem

theorem Keeps.setLevel (hkeeps : Keeps footing journal state) (levelText : String)
    (threshold : Severity) :
    Keeps footing
      { journal with
        threshold := threshold
        backlog := { journal.backlog with level := Level.parseOrInfo levelText } }
      (state.map fun session =>
        { session with
          capture := session.capture.setLevel levelText
          sink := { session.sink with threshold := threshold } }) :=
  ⟨⟨hkeeps.told.of_quiet rfl fun _ => Nat.le_refl _, rfl, hkeeps.clock_eq, hkeeps.process_eq,
    hkeeps.claim_eq, hkeeps.registry_eq, hkeeps.spelled⟩, hkeeps.capture.setLevel levelText,
    hkeeps.drainer_eq, hkeeps.waiting_spelled⟩

/-! ## Passes -/

theorem Keeps.due_spelled (hkeeps : Keeps footing journal state) :
    ∀ view ∈ (journal.backlog.due journal.clock.now).map Delivery.view, view.time.IsSpelled := by
  intro view hmem
  obtain ⟨delivery, hdelivery, rfl⟩ := List.mem_map.1 hmem
  rcases List.mem_append.1 hdelivery with hcall | hreport
  · obtain ⟨waiting, hwaiting, rfl⟩ := List.mem_map.1 hcall
    exact hkeeps.waiting_spelled waiting hwaiting
  · split at hreport
    · exact absurd hreport List.not_mem_nil
    · rw [List.mem_singleton.1 hreport]
      exact hkeeps.spelled.now

/-- What the relaying worker does is what the journal says. -/
theorem Keeps.relays (hkeeps : Keeps footing journal state) :
    ∃ queue taken, Flow.drain (receiver journal.closed (drainOrigin state))
        ⟨state.item.capture.queue, state.host.clock, sinkState state⟩ =
          (⟨queue, journal.pass.clock, taken⟩, false) ∧
      { state.item.capture with queue := queue }.Keeps journal.pass.backlog ∧
      footing.opened.Told (journal.pass.lines.map Line.posting) taken ∧
      taken.sink.threshold = state.item.sink.threshold := by
  have horigin : drainOrigin state = ⟨journal.process, journal.drainer⟩ := by
    rw [drainOrigin, hkeeps.process_eq, hkeeps.drainer_eq]
  rw [horigin, hkeeps.clock_eq]
  have hcalm : ∀ message : Message messageSize,
      message.view ∈ (journal.backlog.due journal.clock.now).map Delivery.view → ∀ sink,
        (receiver journal.closed ⟨journal.process, journal.drainer⟩ message sink).2 = false :=
    fun message hmem => receiver_calm _ _ (hkeeps.due_spelled _ hmem)
  obtain ⟨queue, messages, hdrain, hviews, hcapture⟩ :=
    hkeeps.capture.drain (by decide) journal.clock hcalm (sinkState state)
  have hspelled : ∀ message ∈ messages, message.timestamp.IsSpelled := by
    intro message hmem
    apply hkeeps.due_spelled message.view
    rw [← hviews]
    exact List.mem_map_of_mem hmem
  obtain ⟨htold, hthreshold⟩ := told_takeAll_receiver hkeeps.told journal.closed
    ⟨journal.process, journal.drainer⟩ hspelled
  refine ⟨queue, _, hdrain, hcapture, ?_, hthreshold⟩
  have hsink : (sinkState state).sink.threshold = journal.threshold := hkeeps.threshold_eq
  rw [Journal.pass, List.map_append, Journal.map_posting_dueLines, ← hviews, ← hsink]
  exact htold

theorem Keeps.drain (hkeeps : Keeps footing journal state) :
    Keeps footing journal.pass (drain journal.closed state) := by
  obtain ⟨queue, taken, hrelays, hcapture, htold, hthreshold⟩ := hkeeps.relays
  have hrunning : state.item.capture.worker.isRunning = true := by
    simp [Worker.isRunning, hkeeps.capture.running]
  have hpass : state.item.capture.pass (receiver journal.closed (drainOrigin state))
      state.host.clock (sinkState state) =
      ({ state.item.capture with queue := queue }, journal.pass.clock, taken) := by
    simp only [Capture.pass, Worker.pass, hrunning, if_true, hrelays, Bool.false_eq_true, if_false]
  rw [Session.drain, hpass]
  exact ⟨⟨htold, hthreshold.trans hkeeps.threshold_eq, rfl, hkeeps.process_eq, hkeeps.claim_eq,
    hkeeps.registry_eq, hkeeps.spelled.tickIf _⟩, hcapture, hkeeps.drainer_eq,
    fun view hmem => absurd hmem List.not_mem_nil⟩

/-- Stopping the relaying worker is a last pass. -/
theorem Keeps.stopDrain (hkeeps : Keeps footing journal state) :
    Ready footing journal.pass (stopDrain journal.closed state) := by
  obtain ⟨queue, taken, hrelays, -, htold, hthreshold⟩ := hkeeps.relays
  have hrunning : state.item.capture.worker.isRunning = true := by
    simp [Worker.isRunning, hkeeps.capture.running]
  have hopen : ¬state.item.capture.worker.thread = .joined := by simp [hkeeps.capture.running]
  have hstop : state.item.capture.shutdown (receiver journal.closed (drainOrigin state))
      state.host.clock (sinkState state) =
      (⟨queue, state.item.capture.threshold, { state.item.capture.worker with thread := .joined }⟩,
        journal.pass.clock, taken, [state.item.capture.worker.farewell]) := by
    simp only [Capture.shutdown, Worker.stop, Worker.pass, hopen, if_false, hrunning, if_true,
      hrelays, Bool.false_eq_true]
  rw [Session.stopDrain, hstop]
  apply Ready.reportAll
  exact ⟨htold, hthreshold.trans hkeeps.threshold_eq, rfl, hkeeps.process_eq, hkeeps.claim_eq,
    hkeeps.registry_eq, hkeeps.spelled.tickIf _⟩

end Session

end LogRelay
