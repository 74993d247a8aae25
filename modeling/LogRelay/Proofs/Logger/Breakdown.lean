import LogRelay.Proofs.Capture.Alike
import LogRelay.Proofs.Logger.Acts

/-!
# Calls that break down

A call whose payload breaks down reads the clock at most. On an ordinary thread it does so before the sink is
touched; on a real-time thread it leaves a spare slot of the capture half written, which nobody reads. So
whatever is done later, with the same clock readings, goes as if the call had never been made.
-/

namespace LogRelay

/-! ## What the relay reads -/

theorem Outlet.readsOnly_relay {σ : Type} {size : Nat} (outlet : Outlet σ) :
    Receiver.ReadsOnly (outlet.relay : Receiver size σ) := by
  intro one other hreading
  simp only [Message.reading, Message.Reading.mk.injEq] at hreading
  obtain ⟨hlevel, htimestamp, -, -, htext, -⟩ := hreading
  funext state
  simp only [relay, Message.time?, hlevel, htimestamp, htext]

theorem SinkState.write_of_brokeDown {origin : Origin} {record : Record} {state : SinkState}
    (hbroke : (state.write origin record).2 = .brokeDown) :
    (state.write origin record).1 = state := by
  rw [write] at hbroke ⊢
  cases hline : record.line? state.sink.format state.sink.name origin with
  | none => rfl
  | some line =>
      simp only [hline] at hbroke
      split at hbroke <;> exact WriteResult.noConfusion hbroke

/-! ## Sessions -/

namespace Session

theorem readsOnly_receiver (closed : Bool) (origin : Origin) :
    Receiver.ReadsOnly (receiver closed origin) := by
  intro one other hreading
  funext state
  rw [receiver, receiver, Outlet.readsOnly_relay _ one other hreading]

/-- A session with another capture. -/
def withCapture (capture : Capture messageSize slotCount) (state : Hosted Session) : Hosted Session :=
  state.map fun session => { session with capture := capture }

/-- Two sessions that differ in their captures only, and nobody can tell those apart. -/
def Alike (left right : Hosted Session) : Prop :=
  ∃ capture, left.item.capture.Alike capture ∧ right = withCapture capture left

/-- What is done to a session without its capture. -/
def SparesCapture (change : Hosted Session → Hosted Session) : Prop :=
  ∀ capture state, change (withCapture capture state) = withCapture capture (change state)

variable {left right : Hosted Session}

theorem Alike.spared (halike : Alike left right) {change : Hosted Session → Hosted Session}
    (hspares : SparesCapture change) : Alike (change left) (change right) := by
  obtain ⟨capture, hcapture, rfl⟩ := halike
  have hown : change left = withCapture left.item.capture (change left) :=
    hspares left.item.capture left
  refine ⟨capture, ?_, hspares capture left⟩
  rw [hown]
  exact hcapture

theorem conclude_withCapture (capture : Capture messageSize slotCount) (state : Hosted Session)
    (written : SinkState × WriteResult) :
    conclude (withCapture capture state) written =
      (withCapture capture (conclude state written).1, (conclude state written).2) := by
  rw [conclude, conclude]
  cases written.2 <;> rfl

theorem write_withCapture (thread : Nat) (severity : Severity) (payload : Payload)
    (capture : Capture messageSize slotCount) (state : Hosted Session) :
    write thread severity payload (withCapture capture state) =
      (withCapture capture (write thread severity payload state).1,
        (write thread severity payload state).2) := by
  have hwants : (withCapture capture state).item.sink.wants severity =
      state.item.sink.wants severity := rfl
  rw [write, write, hwants]
  split
  · split
    · exact conclude_withCapture capture (tick state) _
    · rfl
  · rfl

theorem sparesCapture_write (thread : Nat) (severity : Severity) (payload : Payload) :
    SparesCapture fun state => (write thread severity payload state).1 := by
  intro capture state
  simp only [write_withCapture]

theorem reportFlush_withCapture (capture : Capture messageSize slotCount) (name : String)
    (state : Hosted Session) :
    (match (flush (withCapture capture state)).2 with
      | some fault => (flush (withCapture capture state)).1.report (.flushOnCloseFailed name fault)
      | none => (flush (withCapture capture state)).1) =
    withCapture capture (match (flush state).2 with
      | some fault => (flush state).1.report (.flushOnCloseFailed name fault)
      | none => (flush state).1) := by
  have hflush : (flush (withCapture capture state)).2 = (flush state).2 := rfl
  rw [hflush]
  cases (flush state).2 <;> rfl

theorem sparesCapture_finish (thread : Thread) (format : LogFormat) :
    SparesCapture (Logger.finish thread format) := by
  intro capture state
  have htold := reportFlush_withCapture capture state.item.sink.name
  rw [Logger.finish, Logger.finish]
  cases Logger.farewell? format with
  | none => exact congrArg (Hosted.report · (.logClosed state.item.sink.name)) (htold _)
  | some text =>
      simp only [write_withCapture]
      exact congrArg (Hosted.report · (.logClosed state.item.sink.name)) (htold _)

theorem sparesCapture_periodicFlush : SparesCapture periodicFlush := by
  intro capture state
  have hflusher : (withCapture capture state).item.flusher = state.item.flusher := rfl
  rw [periodicFlush, periodicFlush, hflusher]
  cases state.item.flusher <;> rfl

theorem sparesCapture_stopFlusher : SparesCapture stopFlusher := by
  intro capture state
  have hflusher : (withCapture capture state).item.flusher = state.item.flusher := rfl
  rw [stopFlusher, stopFlusher, hflusher]
  cases state.item.flusher <;> rfl

theorem Alike.discard_eq (halike : Alike left right) : discard left = discard right := by
  obtain ⟨capture, -, rfl⟩ := halike
  rfl

theorem Alike.enqueue (halike : Alike left right) (level : Level) (payload : Payload) :
    (enqueue level payload left).2 = (enqueue level payload right).2 ∧
      Alike (Session.enqueue level payload left).1 (Session.enqueue level payload right).1 := by
  obtain ⟨capture, hcapture, rfl⟩ := halike
  obtain ⟨hsame, hlogged⟩ := hcapture.log left.host.clock level payload
  refine ⟨congrArg (fun told : Clock × Bool => told.2) hsame, _, hlogged, ?_⟩
  exact congrArg (fun clock => (⟨{ left.item with
    capture := (capture.log left.host.clock level payload).1 }, { left.host with clock := clock }⟩ :
      Hosted Session)) (congrArg Prod.fst hsame).symm

theorem Alike.drain (halike : Alike left right) (closed : Bool) :
    Alike (drain closed left) (Session.drain closed right) := by
  obtain ⟨capture, hcapture, rfl⟩ := halike
  obtain ⟨hsame, hpassed⟩ := hcapture.pass (readsOnly_receiver closed (drainOrigin left))
    left.host.clock (sinkState left)
  exact ⟨_, hpassed, congrArg (fun told : Clock × SinkState => putSink
    ⟨{ left.item with capture := (capture.pass (receiver closed (drainOrigin left)) left.host.clock
      (sinkState left)).1 }, { left.host with clock := told.1 }⟩ told.2) hsame.symm⟩

theorem Alike.stopDrain (halike : Alike left right) (closed : Bool) :
    Alike (stopDrain closed left) (Session.stopDrain closed right) := by
  obtain ⟨capture, hcapture, rfl⟩ := halike
  obtain ⟨hsame, hstopped⟩ := hcapture.shutdown (readsOnly_receiver closed (drainOrigin left))
    left.host.clock (sinkState left)
  let put := fun told : Clock × SinkState × List Event => putSink
    ⟨{ left.item with capture := (capture.shutdown (receiver closed (drainOrigin left))
      left.host.clock (sinkState left)).1 }, { left.host with clock := told.1 }⟩ told.2.1
  exact ⟨_, hstopped, congrArg (fun told : Clock × SinkState × List Event =>
    ({ put told with host := (put told).host.reportAll told.2.2 } : Hosted Session)) hsame.symm⟩

theorem Alike.setLevel (halike : Alike left right) (levelText : String) (sink : Sink → Sink) :
    let change := fun session : Session =>
      { session with capture := session.capture.setLevel levelText, sink := sink session.sink }
    Alike (left.map change) (right.map change) := by
  obtain ⟨capture, hcapture, rfl⟩ := halike
  exact ⟨_, hcapture.setLevel levelText, rfl⟩

theorem conclude_of_brokeDown {origin : Origin} {record : Record} {state : Hosted Session}
    (hbroke : (conclude state ((sinkState state).write origin record)).2 = true) :
    (conclude state ((sinkState state).write origin record)).1 = state := by
  rw [conclude] at hbroke ⊢
  cases hresult : ((sinkState state).write origin record).2 with
  | done => simp [hresult] at hbroke
  | refused fault => simp [hresult] at hbroke
  | brokeDown => simp only [SinkState.write_of_brokeDown hresult, putSink_sinkState]

theorem write_of_brokeDown {thread : Nat} {severity : Severity} {payload : Payload}
    {state : Hosted Session} (hbroke : (write thread severity payload state).2 = true) :
    (write thread severity payload state).1 = state ∨
      (write thread severity payload state).1 = tick state := by
  rw [write] at hbroke ⊢
  split at hbroke
  · next hwants =>
    rw [if_pos hwants]
    cases htext : payload.text? with
    | none => exact .inl rfl
    | some text =>
        simp only [htext, writeText] at hbroke
        exact .inr (@conclude_of_brokeDown _ _ (tick state) hbroke)
  · exact absurd hbroke Bool.false_ne_true

end Session

namespace Logger

/-! ## What there is to see of a logger -/

/-- What an act tells whoever does it. -/
inductive Answer where
  | done
  | logged (brokeDown : Bool)
  | tried (result : Except LogError Unit)

/-- What an act tells. -/
def Act.answer : Act → Hosted Logger → Answer
  | step (.log thread call), state => .logged (log thread call.severity call.payload state).2
  | step (.setLevel text), state => .tried (setLevel text state).2
  | step _, _ => .done
  | shutdown _, _ => .done
  | start thread options, state => .tried (Logger.start thread options state).2

/-- What some acts tell, one after the other. -/
def answers : List Act → Hosted Logger → List Answer
  | [], _ => []
  | act :: rest, state => act.answer state :: answers rest (act.apply state)

/-- Number of captured messages waiting. -/
def pending (logger : Logger) : Nat :=
  match logger.session with
  | some session => session.capture.pending
  | none => 0

/-- What there is to see of a logger: its host, with the files and the reports, and what it says of
itself. -/
structure Look where
  /-- The host. -/
  host : Host
  /-- The level name, as given. -/
  level : String
  /-- How lines are written. -/
  format : LogFormat
  /-- The settings. -/
  options : SinkOptions
  /-- Whether a session runs. -/
  isRunning : Bool
  /-- Whether the log was closed. -/
  closed : Bool
  /-- Number of captured messages waiting. -/
  pending : Nat
  /-- Number of captured messages refused since the last report. -/
  dropped : Nat
  /-- Debugging text. -/
  debugText : String

/-- What there is to see. -/
def look (state : Hosted Logger) : Look :=
  let logger := state.item
  ⟨state.host, logger.level, logger.format, logger.options, logger.isRunning, logger.closed,
    logger.pending, logger.dropped, logger.debugText⟩

/-! ## Loggers that nobody can tell apart -/

/-- A logger with a session. -/
def withSession (logger : Logger) (session : Session) : Logger := { logger with session := some session }

section Running

variable {logger : Logger} {thread : Thread} {severity : Severity} {payload : Payload}
  {state : Hosted Session}

theorem log_of_closed (hclosed : logger.closed = true) :
    log thread severity payload (state.map logger.withSession) =
      (state.map logger.withSession, false) := by
  rw [log, if_pos]
  exact hclosed

theorem log_of_open (hopen : logger.closed = false) :
    log thread severity payload (state.map logger.withSession) =
      logger.inSession (if logger.probe.ask thread.flag then
        Session.enqueue severity.toLevel payload state
      else Session.write thread.number severity payload state) := by
  have hfalse : ¬logger.closed = true := by simp [hopen]
  rw [log, if_neg]
  · rfl
  · exact hfalse

end Running

/-- Two loggers that nobody can tell apart: they are the same, or so are they but for alike sessions. -/
inductive Alike : Hosted Logger → Hosted Logger → Prop where
  | same (state : Hosted Logger) : Alike state state
  | sessions (logger : Logger) {left right : Hosted Session} (halike : Session.Alike left right) :
      Alike (left.map logger.withSession) (right.map logger.withSession)

namespace Alike

variable {left right : Hosted Logger}

theorem look_eq (halike : Alike left right) : look left = look right := by
  cases halike with
  | same => rfl
  | sessions logger hsessions =>
      obtain ⟨capture, hcapture, rfl⟩ := hsessions
      simp only [look, Hosted.map, withSession, Session.withCapture, pending, dropped, hcapture.pending_eq,
        hcapture.dropped_eq]
      rfl

theorem log (halike : Alike left right) (thread : Thread) (severity : Severity) (payload : Payload) :
    (log thread severity payload left).2 = (Logger.log thread severity payload right).2 ∧
      Alike (Logger.log thread severity payload left).1 (Logger.log thread severity payload right).1 := by
  cases halike with
  | same => exact ⟨rfl, .same _⟩
  | @sessions logger left right hsessions =>
      cases hclosed : logger.closed with
      | true =>
          rw [log_of_closed hclosed, log_of_closed hclosed]
          exact ⟨rfl, .sessions logger hsessions⟩
      | false =>
          rw [log_of_open hclosed, log_of_open hclosed]
          cases logger.probe.ask thread.flag with
          | true =>
              obtain ⟨hsame, hcaptured⟩ := hsessions.enqueue severity.toLevel payload
              exact ⟨hsame, .sessions logger hcaptured⟩
          | false =>
              have hspares := Session.sparesCapture_write thread.number severity payload
              refine ⟨?_, .sessions logger (hsessions.spared hspares)⟩
              obtain ⟨capture, -, rfl⟩ := hsessions
              change (Session.write thread.number severity payload left).2 =
                (Session.write thread.number severity payload (Session.withCapture capture left)).2
              rw [Session.write_withCapture]

theorem setLevel (halike : Alike left right) (text : String) :
    (setLevel text left).2 = (Logger.setLevel text right).2 ∧
      Alike (Logger.setLevel text left).1 (Logger.setLevel text right).1 := by
  cases halike with
  | same => exact ⟨rfl, .same _⟩
  | sessions logger hsessions =>
      rw [Logger.setLevel, Logger.setLevel]
      cases Severity.parse? text with
      | none => exact ⟨rfl, .sessions logger (hsessions.setLevel text id)⟩
      | some threshold =>
          have hset := hsessions.setLevel threshold.toLevel.name fun sink =>
            { sink with threshold := threshold }
          have hreport : Session.SparesCapture (Hosted.report · (.levelChanged threshold)) :=
            fun _ _ => rfl
          exact ⟨rfl, .sessions { logger with level := text } (hset.spared hreport)⟩

theorem drain (halike : Alike left right) : Alike (drain left) (Logger.drain right) := by
  cases halike with
  | same => exact .same _
  | sessions logger hsessions => exact .sessions logger (hsessions.drain logger.closed)

theorem periodicFlush (halike : Alike left right) :
    Alike (periodicFlush left) (Logger.periodicFlush right) := by
  cases halike with
  | same => exact .same _
  | sessions logger hsessions =>
      exact .sessions logger (hsessions.spared Session.sparesCapture_periodicFlush)

theorem close (halike : Alike left right) (thread : Thread) :
    Alike (close thread left) (Logger.close thread right) := by
  cases halike with
  | same => exact .same _
  | @sessions logger left right hsessions =>
      have hclose : ∀ state : Hosted Session, Logger.close thread (state.map logger.withSession) =
          if logger.closed then state.map logger.withSession
          else (finish thread logger.format state).map { logger with closed := true }.withSession :=
        fun _ => rfl
      rw [hclose, hclose]
      split
      · exact .sessions logger hsessions
      · exact .sessions { logger with closed := true }
          (hsessions.spared (Session.sparesCapture_finish thread logger.format))

/-- Nothing of a difference is left once the session is over. -/
theorem shutdown_eq (halike : Alike left right) (thread : Thread) :
    Logger.shutdown thread left = Logger.shutdown thread right := by
  cases halike with
  | same => rfl
  | @sessions logger left right hsessions =>
      have hname : left.item.sink.name = right.item.sink.name := by
        obtain ⟨capture, -, rfl⟩ := hsessions
        rfl
      have hshutdown : ∀ state : Hosted Session, Logger.shutdown thread (state.map logger.withSession) =
          let stopped := Session.stopFlusher (Session.stopDrain logger.closed state)
          let finished := if logger.closed then stopped else finish thread logger.format stopped
          ⟨{ logger with session := none, closed := true },
            Session.discard (finished.report (.loggerShutDown state.item.sink.name))⟩ :=
        fun _ => rfl
      have hstopped := (hsessions.stopDrain logger.closed).spared Session.sparesCapture_stopFlusher
      have hreport : Session.SparesCapture
          (Hosted.report · (.loggerShutDown right.item.sink.name)) := fun _ _ => rfl
      rw [hshutdown, hshutdown, hname]
      simp only
      split
      · rw [(hstopped.spared hreport).discard_eq]
      · rw [((hstopped.spared
          (Session.sparesCapture_finish thread logger.format)).spared hreport).discard_eq]

/-- An act tells the same of both, and leaves them alike. -/
theorem act (halike : Alike left right) (act : Act) :
    act.answer left = act.answer right ∧ Alike (act.apply left) (act.apply right) := by
  cases act with
  | step step =>
      cases step with
      | log thread call =>
          obtain ⟨hsame, hlogged⟩ := halike.log thread call.severity call.payload
          exact ⟨congrArg Answer.logged hsame, hlogged⟩
      | drain => exact ⟨rfl, halike.drain⟩
      | flush => exact ⟨rfl, halike.periodicFlush⟩
      | setLevel text =>
          obtain ⟨hsame, hset⟩ := halike.setLevel text
          exact ⟨congrArg Answer.tried hsame, hset⟩
      | close thread => exact ⟨rfl, halike.close thread⟩
  | shutdown thread =>
      refine ⟨rfl, ?_⟩
      rw [Act.apply, Act.apply, halike.shutdown_eq]
      exact .same _
  | start thread options =>
      have hstart : Logger.start thread options left = Logger.start thread options right := by
        rw [Logger.start, Logger.start, halike.shutdown_eq]
      refine ⟨congrArg (fun started : Hosted Logger × Except LogError Unit =>
        Answer.tried started.2) hstart, ?_⟩
      rw [Act.apply, Act.apply, hstart]
      exact .same _

theorem perform (halike : Alike left right) (acts : List Act) :
    answers acts left = answers acts right ∧ Alike (perform acts left) (Logger.perform acts right) := by
  induction acts generalizing left right with
  | nil => exact ⟨rfl, halike⟩
  | cons act rest induction =>
      obtain ⟨hanswer, hnext⟩ := halike.act act
      obtain ⟨hanswers, hlast⟩ := induction hnext
      exact ⟨by rw [answers, answers, hanswer, hanswers], hlast⟩

end Alike

/-- A call that breaks down leaves a logger that nobody can tell from the one before, once its clock is as
the call leaves it. -/
theorem alike_log_of_brokeDown {thread : Thread} {severity : Severity} {payload : Payload}
    {state : Hosted Logger} (hbroke : (log thread severity payload state).2 = true) :
    Alike
      { state with
        host := { state.host with clock := (log thread severity payload state).1.host.clock } }
      (log thread severity payload state).1 := by
  obtain ⟨⟨level, format, period, probe, options, session, closed⟩, host⟩ := state
  rw [log] at hbroke ⊢
  cases closed with
  | true => exact absurd hbroke Bool.false_ne_true
  | false =>
      cases session with
      | none => exact absurd hbroke Bool.false_ne_true
      | some session =>
          let logger : Logger := ⟨level, format, period, probe, options, some session, false⟩
          simp only [Bool.false_eq_true, if_false] at hbroke ⊢
          split at hbroke
          · next hprobe =>
            simp only [if_pos hprobe]
            have hcapture := Capture.alike_log_of_brokeDown hbroke
            exact @Alike.sessions logger ⟨session, { host with
              clock := (session.capture.log host.clock severity.toLevel payload).2.1 }⟩ _
              ⟨_, hcapture, rfl⟩
          · next hprobe =>
            simp only [if_neg hprobe]
            rcases Session.write_of_brokeDown hbroke with hwrite | hwrite
            · simp only [inSession, hwrite]
              exact .same _
            · simp only [inSession, hwrite]
              exact .same _

end Logger

/-- A call that breaks down leaves no trace. Whatever is done with a capture afterwards, with a receiver that
gets of a message what its readers get, and whatever is done with a logger afterwards, starting it anew
included: every answer is the same, and so is all there is to see, as if the call had not been made and only
the clock had been read. -/
theorem broken_call_leaves_no_trace :
    (∀ {size capacity : Nat} {σ : Type} {receive : Receiver size σ}, receive.ReadsOnly →
      ∀ (state : CaptureState size capacity σ) (level : Level) (payload : Payload),
        (CaptureAct.step (.log level payload)).answer receive state = .logged true →
        let broken := state.step receive (.log level payload)
        let spared := { state with clock := broken.clock }
        ∀ acts, broken.answers receive acts = spared.answers receive acts ∧
          (broken.perform receive acts).look = (spared.perform receive acts).look) ∧
    ∀ (state : Hosted Logger) (thread : Thread) (severity : Severity) (payload : Payload),
      (Logger.log thread severity payload state).2 = true →
      let broken := (Logger.log thread severity payload state).1
      let spared := { state with host := { state.host with clock := broken.host.clock } }
      ∀ acts, Logger.answers acts broken = Logger.answers acts spared ∧
        Logger.look (Logger.perform acts broken) = Logger.look (Logger.perform acts spared) := by
  constructor
  · intro size capacity σ receive hreads state level payload hbroke broken spared acts
    have hcall : (state.capture.log state.clock level payload).2.2 = true :=
      CaptureAnswer.logged.inj hbroke
    have halike : spared.Alike broken := ⟨Capture.alike_log_of_brokeDown hcall, rfl, rfl⟩
    obtain ⟨hanswers, hlast⟩ := halike.perform hreads acts
    exact ⟨hanswers.symm, hlast.look_eq.symm⟩
  · intro state thread severity payload hbroke broken spared acts
    have halike : Logger.Alike spared broken := Logger.alike_log_of_brokeDown hbroke
    obtain ⟨hanswers, hlast⟩ := halike.perform acts
    exact ⟨hanswers.symm, hlast.look_eq.symm⟩

/-! ## A torn slot -/

/-- A payload that breaks down behind two characters. -/
def tornPayload : Payload := [⟨[.text "to", .breakdown], false⟩]

/-- A receiver that keeps what it gets. -/
def keepViews : Receiver 8 (List View) := fun message taken => (taken ++ [message.view], false)

theorem readsOnly_keepViews : keepViews.ReadsOnly := by
  intro one other hreading
  funext taken
  rw [keepViews, keepViews, Message.view_of_reading hreading]

/-- A call that tears a spare slot, before calls that fill the queue and end it. -/
theorem torn_slot_leaves_no_trace :
    let state : CaptureState 8 2 (List View) :=
      CaptureState.step keepViews (.log .info (.ofText "kept"))
        ⟨(Capture.start (by decide) (by decide) .zero "info").1, .steady 0 1, []⟩
    let broken := state.step keepViews (.log .error tornPayload)
    let spared := { state with clock := broken.clock }
    let acts : List CaptureAct :=
      [.step (.log .error (.ofText "next")), .step (.log .error (.ofText "full")), .shutdown]
    let realtime : Thread := ⟨2, ⟨true⟩⟩
    let used := (Logger.log realtime .info (.ofText "kept")
      (Logger.start Host.firstThread (.ofPath "app.log" "app")
        ⟨.idle "info" .text .zero .threadFlag, .initial (.steady 0 0) 1⟩).1).1
    let tear := fun thread => (Logger.log thread .error tornPayload used).1
    let acts' : List Logger.Act :=
      [.step (.log realtime ⟨.error, .ofText "next"⟩), .step .drain, .shutdown Host.firstThread]
    (broken.capture.queue.slots ≠ spared.capture.queue.slots ∧
      broken.answers keepViews acts = spared.answers keepViews acts ∧
      (broken.perform keepViews acts).look = (spared.perform keepViews acts).look ∧
      (spared.perform keepViews acts).receiver = [⟨.info, ⟨0⟩, "kept"⟩, ⟨.error, ⟨2⟩, "next"⟩,
        ⟨.warning, ⟨4⟩, "Dropped"⟩]) ∧
    ∀ thread ∈ [realtime, Host.firstThread],
      Logger.look (Logger.perform acts' (tear thread)) =
          Logger.look (Logger.perform acts'
            { used with host := { used.host with clock := (tear thread).host.clock } }) ∧
        (Logger.perform acts' (tear thread)).host.files.logFiles "app.log".toList 1 =
          [Utf8.bytes ("[1970-01-01 00:00:00.000] [info] Started logger: app.\n" ++
            "[1970-01-01 00:00:00.000] [info] kept\n[1970-01-01 00:00:00.000] [error] next\n")] := by
  intro state broken spared acts realtime used tear acts'
  obtain ⟨hcapture, hlogger⟩ := broken_call_leaves_no_trace
  obtain ⟨hanswers, hlook⟩ :=
    hcapture readsOnly_keepViews state .error tornPayload (by decide +kernel) acts
  refine ⟨⟨by decide +kernel, hanswers, hlook, by decide +kernel⟩, ?_⟩
  intro thread hthread
  have hbroke : (Logger.log thread .error tornPayload used).2 = true := by
    revert thread
    decide +kernel
  refine ⟨(hlogger used thread .error tornPayload hbroke acts').2, ?_⟩
  revert thread
  decide +kernel

end LogRelay
