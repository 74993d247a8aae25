import LogRelay.Proofs.Session.Steps

/-!
# A logger and its journal

A logger that has been started has a session, and that session has a journal. Whatever happens to the logger
happens to the journal. Shutting the logger down is a last pass and, unless the log is closed, the farewell;
it leaves the lines of the journal in the files and gives the name back.
-/

namespace LogRelay

/-- Number of events of a kind that a host has been told of. -/
def Host.count (kind : Event → Bool) (host : Host) : Nat := Event.count kind host.events

theorem Host.count_le_reportAll (kind : Event → Bool) (host : Host) (events : List Event) :
    host.count kind ≤ (host.reportAll events).count kind := by
  rw [count, count, reportAll, Event.count_append]
  exact Nat.le_add_right _ _

namespace Logger

/-- What can happen to a running logger. -/
inductive Step where
  | log (thread : Thread) (call : LogCall)
  | drain
  | flush
  | setLevel (text : String)
  | close (thread : Thread)
deriving DecidableEq, Repr

/-- The call of a step. -/
def Step.call? : Step → Option LogCall
  | log _ call => some call
  | _ => none

/-- Whether a step neither changes the threshold nor closes the log. -/
def Step.isPlain : Step → Bool
  | setLevel _ | close _ => false
  | _ => true

/-- Whether a step closes the log. -/
def Step.isClose : Step → Bool
  | close _ => true
  | _ => false

/-- The state after a step. -/
def step : Step → Hosted Logger → Hosted Logger
  | .log thread call, state => (log thread call.severity call.payload state).1
  | .drain, state => drain state
  | .flush, state => periodicFlush state
  | .setLevel text, state => (setLevel text state).1
  | .close thread, state => close thread state

/-- The state after some steps. -/
def run (steps : List Step) (state : Hosted Logger) : Hosted Logger :=
  steps.foldl (fun state next => step next state) state

end Logger

namespace Journal

/-- The journal after a step. -/
def step (probe : Probe) (format : LogFormat) : Logger.Step → Journal → Journal
  | .log thread call, journal =>
      if journal.closed then journal
      else if probe.ask thread.flag then journal.capture call.severity.toLevel call.payload
      else journal.write .call thread.number call
  | .drain, journal => journal.pass
  | .flush, journal => journal
  | .setLevel text, journal => journal.setLevel text
  | .close thread, journal => journal.close format thread.number

/-- The journal after some steps. -/
def run (probe : Probe) (format : LogFormat) (steps : List Logger.Step) (journal : Journal) :
    Journal :=
  steps.foldl (fun journal next => journal.step probe format next) journal

theorem run_append (probe : Probe) (format : LogFormat) (front back : List Logger.Step)
    (journal : Journal) :
    journal.run probe format (front ++ back) =
      (journal.run probe format front).run probe format back := List.foldl_append

theorem run_concat (probe : Probe) (format : LogFormat) (before : List Logger.Step)
    (step : Logger.Step) (journal : Journal) :
    journal.run probe format (before ++ [step]) =
      (journal.run probe format before).step probe format step := by
  rw [run, List.foldl_append]
  rfl

/-- The journal after a last pass and the farewell. -/
def finish (format : LogFormat) (thread : Nat) (journal : Journal) : Journal :=
  journal.pass.close format thread

theorem lines_finish_of_open {journal : Journal} (hopen : journal.closed = false)
    (format : LogFormat) (thread : Nat) :
    (journal.finish format thread).lines = journal.pass.lines ++
      farewellLines format journal.threshold ⟨journal.process, thread⟩ journal.pass.clock.now := by
  have hstill : ¬journal.pass.closed = true := by simp [pass, hopen]
  rw [finish, close, if_neg hstill]
  exact lines_sayFarewell format thread journal.pass

theorem closed_step (probe : Probe) (format : LogFormat) (step : Logger.Step) (journal : Journal) :
    (journal.step probe format step).closed = (journal.closed || step.isClose) := by
  cases step with
  | log thread call =>
      have hother : (Logger.Step.log thread call).isClose = false := rfl
      rw [Journal.step, hother, Bool.or_false]
      split
      · rfl
      · split <;> rfl
  | drain => exact (Bool.or_false _).symm
  | flush => exact (Bool.or_false _).symm
  | setLevel text =>
      have hother : (Logger.Step.setLevel text).isClose = false := rfl
      rw [Journal.step, setLevel, hother, Bool.or_false]
      split <;> rfl
  | close thread =>
      rw [Journal.step, close, Logger.Step.isClose, Bool.or_true]
      split
      · assumption
      · rfl

theorem closed_step_of_isPlain (probe : Probe) (format : LogFormat) {step : Logger.Step}
    (hplain : step.isPlain = true) (journal : Journal) :
    (journal.step probe format step).closed = journal.closed := by
  have hother : step.isClose = false := by
    cases step with
    | close thread => exact absurd hplain Bool.false_ne_true
    | _ => rfl
  rw [closed_step, hother, Bool.or_false]

theorem closed_run_of_isPlain (probe : Probe) (format : LogFormat) {steps : List Logger.Step}
    (hplain : ∀ step ∈ steps, step.isPlain = true) (journal : Journal) :
    (journal.run probe format steps).closed = journal.closed := by
  induction steps generalizing journal with
  | nil => rfl
  | cons step rest induction =>
      have hrest := induction (fun other hmem => hplain other (List.mem_cons_of_mem _ hmem))
        (journal.step probe format step)
      exact hrest.trans (closed_step_of_isPlain probe format
        (hplain step List.mem_cons_self) journal)

/-- The process stays the same. -/
theorem process_step (probe : Probe) (format : LogFormat) (step : Logger.Step) (journal : Journal) :
    (journal.step probe format step).process = journal.process := by
  cases step with
  | log thread call =>
      rw [Journal.step]
      split
      · rfl
      · split <;> rfl
  | drain => rfl
  | flush => rfl
  | setLevel text =>
      rw [Journal.step, setLevel]
      split <;> rfl
  | close thread =>
      rw [Journal.step, close]
      split
      · rfl
      · cases format <;> rfl

theorem process_run (probe : Probe) (format : LogFormat) (steps : List Logger.Step)
    (journal : Journal) : (journal.run probe format steps).process = journal.process := by
  induction steps generalizing journal with
  | nil => rfl
  | cons step rest induction => exact (induction _).trans (process_step probe format step journal)

end Journal

/-! ## Closing the log -/

namespace Session

variable {footing : Footing} {journal : Journal} {state : Hosted Session}

/-- Closing the log writes the farewell. -/
theorem Ready.finish (hready : Ready footing journal state) (thread : Thread) (format : LogFormat) :
    let next := Logger.finish thread format state
    Ready footing (journal.sayFarewell format thread.number) next ∧
      next.item.capture = state.item.capture ∧ next.item.drainThread = state.item.drainThread ∧
      ((sinkState next).count Event.isLoss = footing.opened.count Event.isLoss →
        next.item.sink.stream.held = []) := by
  intro next
  let said := (Logger.farewell? format).elim state fun text =>
    (Session.write thread.number .info (Payload.ofText text) state).1
  have hsaid : Ready footing (journal.sayFarewell format thread.number) said ∧
      said.item.capture = state.item.capture ∧ said.item.drainThread = state.item.drainThread := by
    cases format with
    | text => exact ⟨hready, rfl, rfl⟩
    | json => exact hready.write (fun _ => rfl) thread.number _
  obtain ⟨hfarewell, hcapture, hthread⟩ := hsaid
  let event := Event.flushOnCloseFailed state.item.sink.name
  let flushed := Session.putSink said ((sinkState said).tell event .flush)
  have hnext : next = flushed.report (.logClosed state.item.sink.name) := by
    have hflush : _ = flushed := flush_eq_tell event said
    rw [← hflush]
    cases format <;> rfl
  have hflushed : Ready footing (journal.sayFarewell format thread.number) flushed :=
    hfarewell.flush fun _ => rfl
  rw [hnext]
  refine ⟨hflushed.report _, hcapture, hthread, ?_⟩
  intro hlosses
  have hevent : ∀ fault, (event fault).isLoss = true := fun _ => rfl
  apply SinkState.held_flush hevent
  have hle := hfarewell.told.count_le Event.isLoss
  have htell := SinkState.count_le_tell Event.isLoss event .flush (sinkState said)
  have hreport : (sinkState (flushed.report (.logClosed state.item.sink.name))).count Event.isLoss =
      ((sinkState said).tell event .flush).count Event.isLoss := by
    have hcount := SinkState.count_report Event.isLoss (.logClosed state.item.sink.name)
      ((sinkState said).tell event .flush)
    exact hcount
  omega

end Session

namespace Logger

/-- A running logger whose session has a journal. -/
structure Keeps (probe : Probe) (format : LogFormat) (footing : Session.Footing) (journal : Journal)
    (state : Hosted Logger) : Prop where
  /-- Callers are probed in the same way. -/
  probe_eq : state.item.probe = probe
  /-- Lines are written in the same way. -/
  format_eq : state.item.format = format
  /-- The log is closed or open alike. -/
  closed_eq : state.item.closed = journal.closed
  /-- A session runs. -/
  session : ∃ session, state.item.session = some session ∧
    Session.Keeps footing journal ⟨session, state.host⟩

variable {probe : Probe} {format : LogFormat} {footing : Session.Footing} {journal : Journal}
  {state : Hosted Logger}

theorem Keeps.dropped_eq (hkeeps : Keeps probe format footing journal state) :
    state.item.dropped = journal.backlog.counted := by
  obtain ⟨session, hsession, hsessionKeeps⟩ := hkeeps.session
  rw [dropped, hsession]
  exact hsessionKeeps.capture.dropped_eq

/-! ## Steps -/

/-- A message is written at once or captured, unless the log is closed. -/
theorem Keeps.log (hkeeps : Keeps probe format footing journal state) (thread : Thread)
    (call : LogCall) :
    Keeps probe format footing (journal.step probe format (.log thread call))
      (step (.log thread call) state) := by
  obtain ⟨session, hsession, hsessionKeeps⟩ := hkeeps.session
  rw [step, Logger.log, hkeeps.closed_eq, hkeeps.probe_eq, Journal.step]
  cases hclosed : journal.closed with
  | true => simpa using hkeeps
  | false =>
      simp only [Bool.false_eq_true, if_false, hsession]
      split
      · exact ⟨hkeeps.probe_eq, hkeeps.format_eq, hkeeps.closed_eq, _, rfl,
          hsessionKeeps.enqueue _ _⟩
      · obtain ⟨hready, hcapture, hthread⟩ :=
          hsessionKeeps.toReady.write (fun posting => (rfl : (Line.call posting).posting = posting))
            thread.number call
        exact ⟨hkeeps.probe_eq, hkeeps.format_eq, hkeeps.closed_eq, _, rfl,
          hsessionKeeps.of_ready hready rfl rfl hcapture hthread⟩

theorem Keeps.drain (hkeeps : Keeps probe format footing journal state) :
    Keeps probe format footing journal.pass (drain state) := by
  obtain ⟨session, hsession, hsessionKeeps⟩ := hkeeps.session
  rw [Logger.drain, hsession, hkeeps.closed_eq]
  exact ⟨hkeeps.probe_eq, hkeeps.format_eq, hkeeps.closed_eq, _, rfl, hsessionKeeps.drain⟩

theorem Keeps.periodicFlush (hkeeps : Keeps probe format footing journal state) :
    Keeps probe format footing journal (periodicFlush state) := by
  obtain ⟨session, hsession, hsessionKeeps⟩ := hkeeps.session
  obtain ⟨hready, hcapture, hthread⟩ := hsessionKeeps.toReady.periodicFlush
  rw [Logger.periodicFlush, hsession]
  exact ⟨hkeeps.probe_eq, hkeeps.format_eq, hkeeps.closed_eq, _, rfl,
    hsessionKeeps.of_ready hready rfl rfl hcapture hthread⟩

/-- A change of the threshold. -/
theorem Keeps.setLevel (hkeeps : Keeps probe format footing journal state) (text : String) :
    Keeps probe format footing (journal.setLevel text) (setLevel text state).1 := by
  obtain ⟨session, hsession, hsessionKeeps⟩ := hkeeps.session
  rw [Logger.setLevel, Journal.setLevel]
  cases Severity.parse? text with
  | none =>
      have hsame : session.sink.threshold = journal.threshold := hsessionKeeps.threshold_eq
      have hset := hsessionKeeps.setLevel text session.sink.threshold
      rw [hsame] at hset
      refine ⟨hkeeps.probe_eq, hkeeps.format_eq, hkeeps.closed_eq,
        { session with capture := session.capture.setLevel text }, ?_, ?_⟩
      · simp only [Hosted.map, hsession, Option.map_some]
      · rw [← hsame] at hset ⊢
        exact hset
  | some threshold =>
      have hset := (hsessionKeeps.setLevel threshold.toLevel.name threshold)
      refine ⟨hkeeps.probe_eq, hkeeps.format_eq, hkeeps.closed_eq, _, ?_,
        hset.of_ready (hset.toReady.report (.levelChanged threshold)) rfl rfl rfl rfl⟩
      simp only [Hosted.report, Hosted.map, hsession, Option.map_some]

/-- Closing the log. -/
theorem Keeps.close (hkeeps : Keeps probe format footing journal state) (thread : Thread) :
    Keeps probe format footing (journal.close format thread.number) (close thread state) := by
  obtain ⟨session, hsession, hsessionKeeps⟩ := hkeeps.session
  rw [Logger.close, Journal.close, hkeeps.closed_eq]
  cases hclosed : journal.closed with
  | true => simpa using hkeeps
  | false =>
      obtain ⟨hready, hcapture, hthread, -⟩ := hsessionKeeps.toReady.finish thread format
      have hbacklog : (journal.sayFarewell format thread.number).backlog = journal.backlog ∧
          (journal.sayFarewell format thread.number).drainer = journal.drainer := by
        cases format <;> exact ⟨rfl, rfl⟩
      have hfinished :=
        hsessionKeeps.of_ready hready hbacklog.1 hbacklog.2 hcapture hthread
      simp only [Bool.false_eq_true, if_false, hsession, hkeeps.format_eq]
      exact ⟨hkeeps.probe_eq, rfl, rfl, _, rfl,
        ⟨⟨hready.told, hready.threshold_eq, hready.clock_eq, hready.process_eq, hready.claim_eq,
          hready.registry_eq, hready.spelled⟩, hfinished.capture, hfinished.drainer_eq,
          hfinished.waiting_spelled⟩⟩

theorem Keeps.step (hkeeps : Keeps probe format footing journal state) (step : Step) :
    Keeps probe format footing (journal.step probe format step) (Logger.step step state) := by
  cases step with
  | log thread call => exact hkeeps.log thread call
  | drain => exact hkeeps.drain
  | flush => exact hkeeps.periodicFlush
  | setLevel text => exact hkeeps.setLevel text
  | close thread => exact hkeeps.close thread

theorem Keeps.run (hkeeps : Keeps probe format footing journal state) (steps : List Step) :
    Keeps probe format footing (journal.run probe format steps) (Logger.run steps state) := by
  induction steps generalizing state journal with
  | nil => exact hkeeps
  | cons step rest induction => exact induction (hkeeps.step step)

/-! ## Starting -/

/-- The call that says the first text of a session. -/
def greetingCall (format : LogFormat) (name : String) : LogCall :=
  ⟨.info, .ofText (greeting format name)⟩

/-- What a logger needs in order to start: a valid level, a name to claim and a file to open. -/
structure Starts (starter : Thread) (options : SinkOptions) (before : Hosted Logger)
    (threshold : Severity) (claim : Claim) (files : FileTree) (sink : Sink) : Prop where
  /-- The level is valid. -/
  parse_eq : Severity.parse? (shutdown starter before).item.level = some threshold
  /-- The name is claimed. -/
  claim_eq : ((shutdown starter before).host.claim options.name options.replace).1 = some claim
  /-- The file is opened. -/
  open_eq : Sink.start options.name options.path (shutdown starter before).item.format
    options.maxSize options.maxFiles (shutdown starter before).host.files = (files, .ok sink)

variable {starter : Thread} {options : SinkOptions} {before : Hosted Logger} {threshold : Severity}
  {claim : Claim} {files : FileTree} {sink : Sink}

theorem level_shutdown (thread : Thread) (state : Hosted Logger) :
    (shutdown thread state).item.level = state.item.level := by
  rw [shutdown]
  cases state.item.session <;> rfl

theorem starts_of_ok (hstart : (start starter options before).2 = .ok ()) :
    ∃ threshold claim files sink, Starts starter options before threshold claim files sink := by
  simp only [start] at hstart
  split at hstart
  · exact absurd hstart (by simp)
  · next threshold hparse =>
    split at hstart
    · exact absurd hstart (by simp)
    · next claim hclaim =>
      simp only [openFile] at hstart
      split at hstart
      · next sink hsink => exact ⟨threshold, claim, _, sink, hparse, hclaim, Prod.ext rfl hsink⟩
      · exact absurd hstart (by simp)

theorem starts_of_parse (hlevel : Severity.parse? before.item.level = some threshold)
    (hstart : (start starter options before).2 = .ok ()) :
    ∃ claim files sink, Starts starter options before threshold claim files sink := by
  obtain ⟨found, claim, files, sink, hstarts⟩ := starts_of_ok hstart
  have hparse := hstarts.parse_eq
  rw [level_shutdown, hlevel] at hparse
  obtain rfl : threshold = found := Option.some.inj hparse
  exact ⟨claim, files, sink, hstarts⟩

/-- The host of a logger whose file has been opened. -/
def openedHost (starter : Thread) (options : SinkOptions) (before : Hosted Logger)
    (files : FileTree) : Host :=
  { ((shutdown starter before).host.claim options.name options.replace).2 with files := files }

/-- What the session of a logger stands on that starts. -/
def openedFooting (starter : Thread) (options : SinkOptions) (before : Hosted Logger) (claim : Claim)
    (files : FileTree) (sink : Sink) : Session.Footing :=
  let host := openedHost starter options before files
  ⟨⟨sink, host.files, host.events⟩, claim, host.registry⟩

/-- The journal of a logger that starts. -/
def openedJournal (starter : Thread) (options : SinkOptions) (before : Hosted Logger)
    (threshold : Severity) : Journal :=
  let idle := shutdown starter before
  (Journal.start threshold idle.host.clock idle.host.process (idle.host.lastThread + 1)).write
    .greeting starter.number (greetingCall idle.item.format options.name)

theorem lines_openedJournal (starter : Thread) (options : SinkOptions) (before : Hosted Logger)
    (threshold : Severity) :
    (openedJournal starter options before threshold).lines =
      Journal.textLines .greeting threshold ⟨(shutdown starter before).host.process, starter.number⟩
        (greeting (shutdown starter before).item.format options.name)
        (shutdown starter before).host.clock.now :=
  Journal.lines_write_ofText .greeting starter.number _ _

theorem Starts.start_eq (hstarts : Starts starter options before threshold claim files sink) :
    start starter options before =
      (startSession starter threshold options claim (shutdown starter before).item
        ⟨sink, openedHost starter options before files⟩, .ok ()) := by
  simp only [start, hstarts.parse_eq, hstarts.claim_eq, openFile]
  have hfiles : ((shutdown starter before).host.claim options.name options.replace).2.files =
      (shutdown starter before).host.files := rfl
  simp only [hfiles, hstarts.open_eq]
  rfl

/-- A clock gives the same readings after a logger was shut down. -/
theorem reading_shutdown (thread : Thread) (state : Hosted Logger) :
    (shutdown thread state).host.clock.reading = state.host.clock.reading := by
  have hflush : ∀ session : Hosted Session, (Session.flush session).1.host.clock = session.host.clock :=
    fun _ => rfl
  have hfinish : ∀ (format : LogFormat) (session : Hosted Session),
      (finish thread format session).host.clock.reading = session.host.clock.reading := by
    intro format session
    simp only [finish]
    cases farewell? format with
    | none =>
        cases (Session.flush session).2 <;> rfl
    | some text =>
        rw [← Session.reading_write thread.number .info (Payload.ofText text) session]
        simp only
        split <;> rfl
  rw [shutdown]
  cases state.item.session with
  | none => rfl
  | some session =>
      have hstopped := (Session.reading_stopFlusher
        (Session.stopDrain state.item.closed ⟨session, state.host⟩)).trans
          (Session.reading_stopDrain state.item.closed ⟨session, state.host⟩)
      simp only
      split
      · exact hstopped
      · exact (hfinish _ _).trans hstopped

/-- A logger that starts keeps a journal. -/
theorem keeps_start (hstarts : Starts starter options before threshold claim files sink)
    (hspelled : before.host.clock.IsSpelled) :
    Keeps (shutdown starter before).item.probe (shutdown starter before).item.format
      (openedFooting starter options before claim files sink)
      (openedJournal starter options before threshold) (start starter options before).1 := by
  let idle := shutdown starter before
  have hclock : (openedHost starter options before files).clock.IsSpelled := by
    intro count
    have hreading := congrFun (reading_shutdown starter before) count
    exact (congrArg Duration.IsSpelled hreading).mpr (hspelled count)
  have hsession := @Session.keeps_start idle.item.period threshold options claim
    ⟨sink, openedHost starter options before files⟩ hclock
  obtain ⟨hready, hcapture, hthread⟩ := hsession.toReady.write
    (fun posting => (rfl : (Line.greeting posting).posting = posting)) starter.number
    (greetingCall idle.item.format options.name)
  have hgreeted := hsession.of_ready
    (hready.report (.loggerStarted options.name options.path threshold)) rfl rfl hcapture hthread
  rw [hstarts.start_eq]
  exact ⟨rfl, rfl, rfl, _, rfl, hgreeted⟩

theorem count_claim (kind : Event → Bool) (host : Host) (name : String) (replace : Bool)
    (hkind : ∀ event, kind event = true → event.isFault = true) :
    (host.claim name replace).2.count kind = host.count kind := by
  have hquiet : ∀ event, event.isFault = false → kind event = false := by
    intro event hevent
    rw [← Bool.not_eq_true]
    intro hsome
    rw [hkind event hsome] at hevent
    exact Bool.noConfusion hevent
  simp only [Host.claim, Registry.claim]
  split
  · split
    · simp [Host.count, Host.reportAll, Event.count, hquiet (.replacingHolder name) rfl]
    · simp [Host.count, Host.reportAll, Event.count, hquiet (.nameTaken name) rfl]
  · simp [Host.count, Host.reportAll]

theorem count_openedHost {kind : Event → Bool}
    (hkind : ∀ event, kind event = true → event.isFault = true) :
    (openedHost starter options before files).count kind =
      (shutdown starter before).host.count kind :=
  count_claim kind (shutdown starter before).host options.name options.replace hkind

/-! ## Shutting down -/

theorem count_le_discard (kind : Event → Bool) (state : Hosted Session) :
    (Session.sinkState state).drop.count kind ≤ (Session.discard state).count kind := by
  let dropped := (Session.putSink state (Session.sinkState state).drop).host
  have hcount : (Session.discard state).count kind = dropped.count kind +
      Event.count kind (dropped.registry.drop state.item.claim).2.toArray := Event.count_append _ _ _
  have hsink : dropped.count kind = (Session.sinkState state).drop.count kind := rfl
  omega

/-- Shutting down is a last pass and the farewell, after which the session is discarded. -/
theorem Keeps.shutdown (hkeeps : Keeps probe format footing journal state) (thread : Thread) :
    ∃ last, Session.Ready footing (journal.finish format thread.number) last ∧
      shutdown thread state =
        ⟨{ state.item with session := none, closed := true }, Session.discard last⟩ := by
  obtain ⟨session, hsession, hsessionKeeps⟩ := hkeeps.session
  have hstopped := hsessionKeeps.stopDrain.stopFlusher
  rw [Logger.shutdown, hsession, Journal.finish, Journal.close]
  simp only [hkeeps.closed_eq, hkeeps.format_eq]
  have hpass : journal.pass.closed = journal.closed := rfl
  rw [hpass]
  cases hclosed : journal.closed with
  | true =>
      rw [hclosed] at hstopped
      exact ⟨_, hstopped.report (.loggerShutDown session.sink.name), rfl⟩
  | false =>
      rw [hclosed] at hstopped
      obtain ⟨hready, -⟩ := hstopped.finish thread format
      have htold := hready.report (.loggerShutDown session.sink.name)
      exact ⟨_, ⟨htold.told, htold.threshold_eq, htold.clock_eq, htold.process_eq, htold.claim_eq,
        htold.registry_eq, htold.spelled⟩, rfl⟩

theorem Keeps.registry_shutdown (hkeeps : Keeps probe format footing journal state)
    (thread : Thread) :
    (Logger.shutdown thread state).host.registry = (footing.registry.drop footing.claim).1 := by
  obtain ⟨last, hready, hshutdown⟩ := hkeeps.shutdown thread
  rw [hshutdown, ← hready.registry_eq, ← hready.claim_eq]
  rfl

theorem held_drop {opened state : SinkState} {postings : List Posting}
    (htold : opened.Told postings state) {kind : Event → Bool}
    (hkind : ∀ name fault, kind (.flushOnDropFailed name fault) = true)
    (hcount : state.drop.count kind = opened.count kind) : state.drop.sink.stream.held = [] := by
  have hle := htold.count_le kind
  have htell := SinkState.count_le_tell kind (.flushOnDropFailed state.sink.name) .flush state
  rw [SinkState.drop_eq_tell] at hcount ⊢
  exact SinkState.held_flush (hkind state.sink.name) (by omega)

/-- What a logger has written that is shut down without a new loss. -/
theorem Keeps.hasWritten (hkeeps : Keeps probe format footing journal state) (thread : Thread)
    {options : SinkOptions} {found : FileTree}
    (hopen : Sink.start options.name options.path format options.maxSize options.maxFiles found =
      (footing.opened.files, .ok footing.opened.sink))
    (hlosses : (Logger.shutdown thread state).host.count Event.isLoss =
      footing.opened.count Event.isLoss) :
    options.HasWritten format ((journal.finish format thread.number).lines.map Line.posting) found
      (Logger.shutdown thread state).host.files := by
  obtain ⟨last, hready, hshutdown⟩ := hkeeps.shutdown thread
  have hdropped := hready.told.drop
  have hle := hdropped.count_le Event.isLoss
  have hdiscard := count_le_discard Event.isLoss last
  rw [hshutdown] at hlosses ⊢
  change (Session.discard last).count Event.isLoss = _ at hlosses
  have hsame : (Session.sinkState last).drop.count Event.isLoss =
      footing.opened.count Event.isLoss := by omega
  exact hdropped.hasWritten hopen hsame (held_drop hready.told (fun _ _ => rfl) hsame)

/-- What a logger has logged that is shut down without a new fault. -/
theorem Keeps.hasLogged (hkeeps : Keeps probe format footing journal state) (thread : Thread)
    {options : SinkOptions} {found : FileTree}
    (hopen : Sink.start options.name options.path format options.maxSize options.maxFiles found =
      (footing.opened.files, .ok footing.opened.sink))
    (hfaults : (Logger.shutdown thread state).host.count Event.isFault =
      footing.opened.count Event.isFault) :
    options.HasLogged format ((journal.finish format thread.number).lines.map Line.posting) found
      (Logger.shutdown thread state).host.files := by
  obtain ⟨last, hready, hshutdown⟩ := hkeeps.shutdown thread
  have hdropped := hready.told.drop
  have hle := hdropped.count_le Event.isFault
  have hdiscard := count_le_discard Event.isFault last
  rw [hshutdown] at hfaults ⊢
  change (Session.discard last).count Event.isFault = _ at hfaults
  have hsame : (Session.sinkState last).drop.count Event.isFault =
      footing.opened.count Event.isFault := by omega
  exact hdropped.hasLogged hopen hsame (held_drop hready.told (fun _ _ => rfl) hsame)

end Logger

end LogRelay
