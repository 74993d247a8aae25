import LogRelay.Proofs.Logger.Acts
import LogRelay.Proofs.Logger.Handed

/-!
# The phases of a logger

What has been done with a logger, and whether its starts succeeded, says in which phase it is. Only a running
logger writes: one that was not started, closed, or shut down leaves the contents of all files alone. The
lines of a session that has ended are its first text, the messages that its run and a last pass hand over, and
its farewell. The farewell is a line if the format has one and `info` reaches the threshold in force when the
log is first closed.
-/

namespace LogRelay

namespace Logger

/-! ## Phases -/

/-- Where a logger is in its life. -/
inductive Phase where
  /-- It was never started. -/
  | unused
  /-- It takes messages. -/
  | running
  /-- Its log was closed. -/
  | closed
  /-- Its session is over. -/
  | ended
deriving DecidableEq, Repr

namespace Phase

/-- Whether the log was closed since the logger was last started. -/
def isClosed : Phase → Bool
  | closed | ended => true
  | unused | running => false

/-- Whether there is a session. -/
def hasSession : Phase → Bool
  | running | closed => true
  | unused | ended => false

theorem eq_closed {phase : Phase} (hsession : phase.hasSession = true) (hphase : phase ≠ running) :
    phase = closed := by
  cases phase with
  | unused | ended => exact absurd hsession Bool.false_ne_true
  | running => exact absurd rfl hphase
  | closed => rfl

/-- The phase after the log is closed. -/
def close : Phase → Phase
  | running => closed
  | phase => phase

/-- The phase after the session is over, if there is one. -/
def finish : Phase → Phase
  | running | closed => ended
  | phase => phase

/-- The phase after an act, which may start the logger. -/
def next (act : Act) (started : Bool) (phase : Phase) : Phase :=
  match act with
  | .step step => if step.isClose then phase.close else phase
  | .shutdown _ => phase.finish
  | .start _ _ => if started then running else phase.finish

variable {phase : Phase}

theorem close_of_idle (hidle : phase.hasSession = false) : phase.close = phase := by
  cases phase with
  | unused | ended => rfl
  | running | closed => exact absurd hidle.symm Bool.false_ne_true

theorem finish_of_idle (hidle : phase.hasSession = false) : phase.finish = phase := by
  cases phase with
  | unused | ended => rfl
  | running | closed => exact absurd hidle.symm Bool.false_ne_true

theorem finish_of_session (hsession : phase.hasSession = true) : phase.finish = ended := by
  cases phase with
  | unused | ended => exact absurd hsession Bool.false_ne_true
  | running | closed => rfl

theorem hasSession_finish (phase : Phase) : phase.finish.hasSession = false := by
  cases phase <;> rfl

theorem next_step_of_idle (hidle : phase.hasSession = false) (step : Step) (started : Bool) :
    phase.next (.step step) started = phase := by
  rw [next, close_of_idle hidle, ite_self]

theorem hasSession_next_step (step : Step) (started : Bool) (phase : Phase) :
    (phase.next (.step step) started).hasSession = phase.hasSession := by
  rw [next]
  split <;> cases phase <;> rfl

theorem isClosed_next_step (hsession : phase.hasSession = true) (step : Step) (started : Bool) :
    (phase.next (.step step) started).isClosed = (phase.isClosed || step.isClose) := by
  cases phase with
  | unused | ended => exact absurd hsession Bool.false_ne_true
  | running | closed => cases hclose : step.isClose <;> simp [next, hclose, close, isClosed]

end Phase

/-- The phase after some acts on a logger in a phase. -/
def phaseFrom : List Act → Hosted Logger → Phase → Phase
  | [], _, phase => phase
  | act :: rest, state, phase => phaseFrom rest (act.apply state) (phase.next act (act.starts state))

/-- The phase of a logger that was never started before some acts. -/
def phaseAfter (acts : List Act) (state : Hosted Logger) : Phase := phaseFrom acts state .unused

variable {probe : Probe} {format : LogFormat} {footing : Session.Footing} {journal : Journal}
  {state : Hosted Logger}

/-! ## What an act keeps -/

theorem Keeps.spelled (hkeeps : Keeps probe format footing journal state) :
    state.host.clock.IsSpelled := by
  obtain ⟨session, -, hsessionKeeps⟩ := hkeeps.session
  have hclock : state.host.clock = journal.clock := hsessionKeeps.clock_eq
  rw [hclock]
  exact hsessionKeeps.spelled

theorem Keeps.anew (hkeeps : Keeps probe format footing journal state) {session : Session}
    (hsession : state.item.session = some session) :
    Keeps probe format
      ⟨Session.sinkState ⟨session, state.host⟩, footing.claim, footing.registry⟩
      { journal with lines := [] } state := by
  obtain ⟨found, hfound, hsessionKeeps⟩ := hkeeps.session
  obtain rfl : session = found := Option.some.inj (hsession.symm.trans hfound)
  exact ⟨hkeeps.probe_eq, hkeeps.format_eq, hkeeps.closed_eq, session, hsession,
    ⟨⟨SinkState.told_nil _, hsessionKeeps.threshold_eq, hsessionKeeps.clock_eq,
      hsessionKeeps.process_eq, hsessionKeeps.claim_eq, hsessionKeeps.registry_eq,
      hsessionKeeps.spelled⟩, hsessionKeeps.capture, hsessionKeeps.drainer_eq,
      hsessionKeeps.waiting_spelled⟩⟩

theorem Keeps.told_step (hkeeps : Keeps probe format footing journal state) {session : Session}
    (hsession : state.item.session = some session) (step : Step) :
    ∃ next, (Logger.step step state).item.session = some next ∧
      (Session.sinkState ⟨session, state.host⟩).Told
        (({ journal with lines := [] } : Journal).step probe format step |>.lines.map Line.posting)
        (Session.sinkState ⟨next, (Logger.step step state).host⟩) := by
  obtain ⟨next, hnext, hkept⟩ := ((hkeeps.anew hsession).step step).session
  exact ⟨next, hnext, hkept.told⟩

theorem Keeps.count_le_step (hkeeps : Keeps probe format footing journal state)
    (kind : Event → Bool) (step : Step) :
    state.host.count kind ≤ (Logger.step step state).host.count kind := by
  obtain ⟨session, hsession, -⟩ := hkeeps.session
  obtain ⟨next, -, htold⟩ := hkeeps.told_step hsession step
  exact htold.count_le kind

theorem Keeps.count_le_shutdown (hkeeps : Keeps probe format footing journal state)
    (kind : Event → Bool) (thread : Thread) :
    state.host.count kind ≤ (Logger.shutdown thread state).host.count kind := by
  obtain ⟨session, hsession, -⟩ := hkeeps.session
  obtain ⟨last, hready, hshutdown⟩ := (hkeeps.anew hsession).shutdown thread
  rw [hshutdown]
  exact Nat.le_trans (hready.told.drop.count_le kind) (count_le_discard kind last)

/-- A closed log that holds nothing back stays as it is. -/
theorem Keeps.files_step (hkeeps : Keeps probe format footing journal state)
    (hclosed : state.item.closed = true) {session : Session}
    (hsession : state.item.session = some session) (hheld : session.sink.stream.held = [])
    (step : Step) :
    (Logger.step step state).host.files = state.host.files ∧
      ∃ next, (Logger.step step state).item.session = some next ∧ next.sink.stream.held = [] := by
  obtain ⟨next, hnext, htold⟩ := hkeeps.told_step hsession step
  have hjournal : ({ journal with lines := [] } : Journal).closed = true :=
    hkeeps.closed_eq.symm.trans hclosed
  rw [Journal.lines_step_of_closed hjournal step] at htold
  obtain ⟨hsink, hfiles⟩ := SinkState.quiet_eq_iff.1 (htold.quiet_eq hheld)
  have hstream : next.sink.stream = session.sink.stream := by
    have hsame := congrArg Sink.stream hsink
    exact hsame
  exact ⟨hfiles, next, hnext, hstream ▸ hheld⟩

theorem Keeps.files_shutdown (hkeeps : Keeps probe format footing journal state)
    (hclosed : state.item.closed = true) {session : Session}
    (hsession : state.item.session = some session) (hheld : session.sink.stream.held = [])
    (thread : Thread) : (Logger.shutdown thread state).host.files = state.host.files := by
  obtain ⟨last, hready, hshutdown⟩ := (hkeeps.anew hsession).shutdown thread
  have hjournal : ({ journal with lines := [] } : Journal).closed = true :=
    hkeeps.closed_eq.symm.trans hclosed
  have htold := hready.told.drop
  rw [Journal.lines_finish_of_closed hjournal] at htold
  rw [hshutdown]
  exact (SinkState.quiet_eq_iff.1 (htold.quiet_eq hheld)).2

/-- Closing a log without a loss leaves nothing held back. -/
theorem Keeps.held_close (hkeeps : Keeps probe format footing journal state)
    (hopen : state.item.closed = false) (thread : Thread)
    (hlosses : (Logger.step (.close thread) state).host.count Event.isLoss =
      state.host.count Event.isLoss) :
    ∃ next, (Logger.step (.close thread) state).item.session = some next ∧
      next.sink.stream.held = [] := by
  obtain ⟨session, hsession, -⟩ := hkeeps.session
  obtain ⟨found, hfound, hready⟩ := (hkeeps.anew hsession).session
  obtain rfl : session = found := Option.some.inj (hsession.symm.trans hfound)
  obtain ⟨-, -, -, hheld⟩ := hready.toReady.finish thread state.item.format
  have hclose : Logger.step (.close thread) state =
      (finish thread state.item.format ⟨session, state.host⟩).map fun session =>
        { state.item with session := some session, closed := true } := by
    simp only [Logger.step, Logger.close, hopen, hsession, Bool.false_eq_true, if_false]
  rw [hclose] at hlosses ⊢
  exact ⟨_, rfl, hheld hlosses⟩

/-! ## Loggers in a phase -/

/-- A logger in a phase. -/
structure Lives (probe : Probe) (format : LogFormat) (phase : Phase) (state : Hosted Logger) :
    Prop where
  /-- Callers are probed in the same way. -/
  probe_eq : state.item.probe = probe
  /-- Lines are written in the same way. -/
  format_eq : state.item.format = format
  /-- Every reading of the clock can be spelled. -/
  spelled : state.host.clock.IsSpelled
  /-- The phase says whether the log is closed. -/
  closed_eq : state.item.closed = phase.isClosed
  /-- The phase says whether there is a session, and a session has a journal. -/
  session : if phase.hasSession then ∃ footing journal, Keeps probe format footing journal state
    else state.item.session = none

/-- A closed log holds nothing back. -/
def Settled (phase : Phase) (state : Hosted Logger) : Prop :=
  phase = .closed → ∃ session, state.item.session = some session ∧ session.sink.stream.held = []

variable {phase : Phase}

namespace Lives

theorem cases_session (hlives : Lives probe format phase state) :
    (phase.hasSession = false ∧ state.item.session = none) ∨
      (phase.hasSession = true ∧ ∃ footing journal, Keeps probe format footing journal state) := by
  have hsession := hlives.session
  cases hphase : phase.hasSession with
  | false =>
      rw [hphase, if_neg Bool.false_ne_true] at hsession
      exact .inl ⟨rfl, hsession⟩
  | true =>
      rw [hphase, if_pos rfl] at hsession
      exact .inr ⟨rfl, hsession⟩

theorem of_none (hprobe : state.item.probe = probe) (hformat : state.item.format = format)
    (hspelled : state.host.clock.IsSpelled) (hclosed : state.item.closed = phase.isClosed)
    (hphase : phase.hasSession = false) (hnone : state.item.session = none) :
    Lives probe format phase state :=
  ⟨hprobe, hformat, hspelled, hclosed, by rwa [hphase, if_neg Bool.false_ne_true]⟩

theorem of_keeps (hkeeps : Keeps probe format footing journal state)
    (hclosed : journal.closed = phase.isClosed) (hphase : phase.hasSession = true) :
    Lives probe format phase state :=
  ⟨hkeeps.probe_eq, hkeeps.format_eq, hkeeps.spelled, hkeeps.closed_eq.trans hclosed, by
    rw [hphase, if_pos rfl]
    exact ⟨footing, journal, hkeeps⟩⟩

/-! ## What an act does in a phase -/

theorem step (hlives : Lives probe format phase state) (step : Step) :
    Lives probe format (phase.next (.step step) false) (Logger.step step state) := by
  rcases hlives.cases_session with ⟨hphase, hnone⟩ | ⟨hphase, footing, journal, hkeeps⟩
  · obtain ⟨level, events, hstep⟩ := step_of_none hnone step
    rw [Phase.next_step_of_idle hphase, hstep]
    exact of_none hlives.probe_eq hlives.format_eq hlives.spelled hlives.closed_eq hphase hnone
  · have hclosed : journal.closed = phase.isClosed :=
      hkeeps.closed_eq.symm.trans hlives.closed_eq
    apply of_keeps (hkeeps.step step)
    · rw [Journal.closed_step, hclosed, Phase.isClosed_next_step hphase]
    · rw [Phase.hasSession_next_step, hphase]

theorem shutdown (hlives : Lives probe format phase state) (thread : Thread) :
    Lives probe format phase.finish (Logger.shutdown thread state) := by
  rcases hlives.cases_session with ⟨hphase, hnone⟩ | ⟨hphase, footing, journal, hkeeps⟩
  · rw [Phase.finish_of_idle hphase, shutdown_of_none hnone]
    exact hlives
  · have hspelled : (Logger.shutdown thread state).host.clock.IsSpelled := by
      intro count
      rw [reading_shutdown]
      exact hlives.spelled count
    obtain ⟨last, -, hshutdown⟩ := hkeeps.shutdown thread
    rw [Phase.finish_of_session hphase]
    rw [hshutdown] at hspelled ⊢
    exact of_none hlives.probe_eq hlives.format_eq hspelled rfl rfl rfl

/-- Starting in a phase. -/
theorem start (hlives : Lives probe format phase state) (thread : Thread) (options : SinkOptions) :
    Lives probe format (if (Logger.start thread options state).2.isOk then .running else phase.finish)
      (Logger.start thread options state).1 := by
  have hidle := hlives.shutdown thread
  cases hstart : (Logger.start thread options state).2 with
  | error error =>
      have hfails := fails_of_error hstart
      have hnone := session_shutdown thread state
      exact of_none (hfails.item_eq ▸ hidle.probe_eq) (hfails.item_eq ▸ hidle.format_eq)
        (hfails.clock_eq ▸ hidle.spelled) (hfails.item_eq ▸ hidle.closed_eq)
        phase.hasSession_finish (hfails.item_eq ▸ hnone)
  | ok =>
      obtain ⟨threshold, claim, files, sink, hstarts⟩ := starts_of_ok hstart
      have hkeeps := keeps_start hstarts hlives.spelled
      rw [hidle.probe_eq, hidle.format_eq] at hkeeps
      exact of_keeps hkeeps rfl rfl

theorem act (hlives : Lives probe format phase state) (act : Act) :
    Lives probe format (phase.next act (act.starts state)) (act.apply state) := by
  cases act with
  | step step => exact hlives.step step
  | shutdown thread => exact hlives.shutdown thread
  | start thread options => exact hlives.start thread options

/-! ## What an act reports -/

theorem count_le_shutdown (hlives : Lives probe format phase state) (kind : Event → Bool)
    (thread : Thread) : state.host.count kind ≤ (Logger.shutdown thread state).host.count kind := by
  rcases hlives.cases_session with ⟨-, hnone⟩ | ⟨-, footing, journal, hkeeps⟩
  · rw [shutdown_of_none hnone]
  · exact hkeeps.count_le_shutdown kind thread

theorem losses_shutdown_le (hlives : Lives probe format phase state) (thread : Thread)
    (options : SinkOptions) :
    (Logger.shutdown thread state).host.count Event.isLoss ≤
      (Logger.start thread options state).1.host.count Event.isLoss := by
  cases hstart : (Logger.start thread options state).2 with
  | error error => exact (fails_of_error hstart).count_le _
  | ok =>
      obtain ⟨threshold, claim, files, sink, hstarts⟩ := starts_of_ok hstart
      obtain ⟨session, -, hkept⟩ := (keeps_start hstarts hlives.spelled).session
      have hopened : (openedHost thread options state files).count Event.isLoss =
          (Logger.shutdown thread state).host.count Event.isLoss :=
        count_openedHost fun _ => Event.isFault_of_isLoss
      rw [← hopened]
      exact hkept.told.count_le Event.isLoss

theorem losses_shutdown_le_act (hlives : Lives probe format phase state) {act : Act}
    {closer : Thread} (hcloser : act.closer? = some closer) :
    (Logger.shutdown closer state).host.count Event.isLoss ≤
      (act.apply state).host.count Event.isLoss := by
  cases act with
  | step step => exact absurd hcloser.symm (Option.some_ne_none _)
  | shutdown thread =>
      obtain rfl : thread = closer := Option.some.inj hcloser
      exact Nat.le_refl _
  | start thread options =>
      obtain rfl : thread = closer := Option.some.inj hcloser
      exact hlives.losses_shutdown_le thread options

theorem losses_le_act (hlives : Lives probe format phase state) (act : Act) :
    state.host.count Event.isLoss ≤ (act.apply state).host.count Event.isLoss := by
  cases act with
  | step step =>
      rcases hlives.cases_session with ⟨-, hnone⟩ | ⟨-, footing, journal, hkeeps⟩
      · obtain ⟨level, events, hstep⟩ := step_of_none hnone step
        rw [Act.apply, hstep]
        exact Host.count_le_reportAll _ _ _
      · exact hkeeps.count_le_step _ step
  | shutdown thread => exact hlives.count_le_shutdown _ thread
  | start thread options =>
      exact Nat.le_trans (hlives.count_le_shutdown _ thread) (hlives.losses_shutdown_le thread options)

/-- Without a loss a closed log still holds nothing back after an act. -/
theorem settled_act (hlives : Lives probe format phase state) (hsettled : Settled phase state)
    (act : Act) (hlosses : (act.apply state).host.count Event.isLoss = state.host.count Event.isLoss) :
    Settled (phase.next act (act.starts state)) (act.apply state) := by
  intro hclosed
  have hidle : ¬phase.finish = .closed := by cases phase <;> simp [Phase.finish]
  cases act with
  | shutdown thread => exact absurd hclosed hidle
  | start thread options =>
      rw [Phase.next] at hclosed
      split at hclosed
      · exact absurd hclosed (by simp)
      · exact absurd hclosed hidle
  | step step =>
      rcases hlives.cases_session with ⟨hphase, -⟩ | ⟨hphase, footing, journal, hkeeps⟩
      · rw [Phase.next_step_of_idle hphase] at hclosed
        exact absurd (hclosed ▸ hphase) (by simp [Phase.hasSession])
      · cases phase with
        | unused | ended => exact absurd hphase Bool.false_ne_true
        | closed =>
            obtain ⟨session, hsession, hheld⟩ := hsettled rfl
            exact (hkeeps.files_step hlives.closed_eq hsession hheld step).2
        | running =>
            cases step with
            | close thread => exact hkeeps.held_close hlives.closed_eq thread hlosses
            | _ => simp [Phase.next, Step.isClose] at hclosed

/-- A logger that does not run leaves the contents of all files alone, unless it is started. -/
theorem contents_eq (hlives : Lives probe format phase state) (hsettled : Settled phase state)
    (hphase : phase ≠ .running) {act : Act} (hstarts : act.starts state = false) :
    (act.apply state).host.files.contents = state.host.files.contents := by
  have hshutdown : ∀ thread, (Logger.shutdown thread state).host.files = state.host.files := by
    intro thread
    rcases hlives.cases_session with ⟨-, hnone⟩ | ⟨hsession, footing, journal, hkeeps⟩
    · rw [shutdown_of_none hnone]
    · obtain rfl := Phase.eq_closed hsession hphase
      obtain ⟨session, hsession, hheld⟩ := hsettled rfl
      exact hkeeps.files_shutdown hlives.closed_eq hsession hheld thread
  cases act with
  | shutdown thread => exact congrArg FileTree.contents (hshutdown thread)
  | start thread options =>
      cases hstart : (Logger.start thread options state).2 with
      | error error =>
          have hcontents := (fails_of_error hstart).contents_eq
          rw [hshutdown] at hcontents
          exact hcontents
      | ok => simp [Act.starts, hstart, Except.isOk, Except.toBool] at hstarts
  | step step =>
      rcases hlives.cases_session with ⟨-, hnone⟩ | ⟨hsession, footing, journal, hkeeps⟩
      · obtain ⟨level, events, hstep⟩ := step_of_none hnone step
        rw [Act.apply, hstep]
        rfl
      · obtain rfl := Phase.eq_closed hsession hphase
        obtain ⟨session, hsession, hheld⟩ := hsettled rfl
        exact congrArg FileTree.contents
          (hkeeps.files_step hlives.closed_eq hsession hheld step).1

/-! ## Runs -/

theorem perform (hlives : Lives probe format phase state) (acts : List Act) :
    Lives probe format (phaseFrom acts state phase) (Logger.perform acts state) := by
  induction acts generalizing state phase with
  | nil => exact hlives
  | cons act rest induction => exact induction (hlives.act act)

theorem losses_le_perform (hlives : Lives probe format phase state) (acts : List Act) :
    state.host.count Event.isLoss ≤ (Logger.perform acts state).host.count Event.isLoss := by
  induction acts generalizing state phase with
  | nil => exact Nat.le_refl _
  | cons act rest induction =>
      exact Nat.le_trans (hlives.losses_le_act act) (induction (hlives.act act))

/-- A life that reports no loss reports none while one of its sessions runs, shutting down before and
behind it included. -/
theorem losses_session_eq (hlives : Lives probe format phase state) {before rest : List Act}
    {starter closer : Thread} {options : SinkOptions} {steps : List Step} {last : Act}
    (hcloser : last.closer? = some closer)
    (hlosses : (Logger.perform (before ++ .start starter options :: (steps.map .step ++ last :: rest))
      state).host.count Event.isLoss = state.host.count Event.isLoss) :
    (Logger.shutdown closer (run steps (Logger.start starter options
      (Logger.perform before state)).1)).host.count Event.isLoss =
      (Logger.shutdown starter (Logger.perform before state)).host.count Event.isLoss := by
  have hbefore := hlives.perform before
  have hstarted := hbefore.start starter options
  have hrun := hstarted.perform (steps.map .step)
  have hmiddle := hstarted.losses_le_perform (steps.map .step)
  rw [perform_steps] at hrun hmiddle
  rw [perform_append] at hlosses
  have hsplit : Logger.perform (.start starter options :: (steps.map .step ++ last :: rest))
      (Logger.perform before state) =
        Logger.perform rest (last.apply (run steps (Logger.start starter options
          (Logger.perform before state)).1)) := by
    rw [← perform_steps, ← List.cons_append, perform_append]
    rfl
  rw [hsplit] at hlosses
  have hfirst := hlives.losses_le_perform before
  have hshut := hbefore.count_le_shutdown Event.isLoss starter
  have hopened := hbefore.losses_shutdown_le starter options
  have hclosing := hrun.count_le_shutdown Event.isLoss closer
  have hend := hrun.losses_shutdown_le_act hcloser
  have hrest := (hrun.act last).losses_le_perform rest
  omega

theorem settled_perform (hlives : Lives probe format phase state) (hsettled : Settled phase state)
    (acts : List Act)
    (hlosses : (Logger.perform acts state).host.count Event.isLoss = state.host.count Event.isLoss) :
    Settled (phaseFrom acts state phase) (Logger.perform acts state) := by
  induction acts generalizing state phase with
  | nil => exact hsettled
  | cons act rest induction =>
      have hnext := hlives.act act
      have hact := hlives.losses_le_act act
      have hrest := hnext.losses_le_perform rest
      have hlast : (Logger.perform rest (act.apply state)).host.count Event.isLoss =
        state.host.count Event.isLoss := hlosses
      exact induction hnext (hlives.settled_act hsettled act (by omega)) (by omega)

end Lives

/-- The least severe records that are wanted, while a session runs. -/
def threshold? (logger : Logger) : Option Severity :=
  logger.session.map fun session => session.sink.threshold

theorem Keeps.threshold?_eq (hkeeps : Keeps probe format footing journal state) :
    state.item.threshold? = some journal.threshold := by
  obtain ⟨session, hsession, hsessionKeeps⟩ := hkeeps.session
  have hthreshold : session.sink.threshold = journal.threshold := hsessionKeeps.threshold_eq
  rw [threshold?, hsession, Option.map_some, hthreshold]

theorem Keeps.clock_eq (hkeeps : Keeps probe format footing journal state) :
    state.host.clock = journal.clock := by
  obtain ⟨session, -, hsessionKeeps⟩ := hkeeps.session
  exact hsessionKeeps.clock_eq

/-- What a session has written when it ends, if nothing was lost. -/
theorem hasWritten_session {starter closer : Thread} {options : SinkOptions} {before : Hosted Logger}
    {steps : List Step} (hspelled : before.host.clock.IsSpelled)
    (hstart : (start starter options before).2 = .ok ())
    (hlosses : (shutdown closer (run steps (start starter options before).1)).host.count
      Event.isLoss = (shutdown starter before).host.count Event.isLoss) :
    let idle := shutdown starter before
    let started := (start starter options before).1
    let closing := run (untilClosed (steps ++ [.drain])) started
    ∃ first last,
      started.item.threshold? = some first ∧ closing.item.threshold? = some last ∧
      options.HasWritten idle.item.format
        ((Journal.textLines .greeting first ⟨idle.host.process, starter.number⟩
            (greeting idle.item.format options.name) idle.host.clock.now ++
          handed (steps ++ [.drain]) started ++
          Journal.farewellLines idle.item.format last
            ⟨idle.host.process, (firstCloser steps closer).number⟩ closing.host.clock.now).map
          Line.posting)
        idle.host.files (shutdown closer (run steps started)).host.files := by
  intro idle started closing
  obtain ⟨threshold, claim, files, sink, hstarts⟩ := starts_of_ok hstart
  have hkeeps := keeps_start hstarts hspelled
  have hclosing := hkeeps.run (untilClosed (steps ++ [.drain]))
  have hopened : (openedHost starter options before files).count Event.isLoss =
      idle.host.count Event.isLoss := count_openedHost fun _ => Event.isFault_of_isLoss
  have hwritten := (hkeeps.run steps).hasWritten closer hstarts.open_eq (hlosses.trans hopened.symm)
  rw [hkeeps.lines_finish_run rfl, lines_openedJournal] at hwritten
  refine ⟨threshold, _, hkeeps.threshold?_eq, hclosing.threshold?_eq, ?_⟩
  rw [hclosing.clock_eq]
  exact hwritten

/-- The life of a logger whose opened file takes everything. Its log is closed exactly in the phases in
which it was closed since the last start that succeeded. Outside a running session no act but a start that
succeeds changes the contents of any file. Every session that has ended wrote its first text, then the
messages that its run and a last pass hand over, and then its farewell, which is a line if its format has one
and `info` reaches the threshold in force when its log was first closed, and nothing otherwise. -/
theorem lifecycle {level : String} {format : LogFormat} {period : Duration} {probe : Probe}
    {host : Host} (hclock : host.clock.IsSpelled) (acts : List Act)
    (hlosses : (perform acts ⟨.idle level format period probe, host⟩).host.count Event.isLoss =
      host.count Event.isLoss) :
    let unused : Hosted Logger := ⟨.idle level format period probe, host⟩
    (perform acts unused).item.closed = (phaseAfter acts unused).isClosed ∧
    (phaseAfter acts unused ≠ .running → ∀ act : Act, act.starts (perform acts unused) = false →
      (act.apply (perform acts unused)).host.files.contents =
        (perform acts unused).host.files.contents) ∧
    ∀ before starter options steps last closer rest,
      acts = before ++ .start starter options :: (steps.map .step ++ last :: rest) →
      (start starter options (perform before unused)).2 = .ok () → last.closer? = some closer →
      let idle := shutdown starter (perform before unused)
      let started := (start starter options (perform before unused)).1
      let closing := run (untilClosed (steps ++ [.drain])) started
      (∀ line ∈ handed (steps ++ [.drain]) started, line.isMessage = true) ∧
      ∃ first last,
        started.item.threshold? = some first ∧ closing.item.threshold? = some last ∧
        options.HasWritten format
          ((Journal.textLines .greeting first ⟨idle.host.process, starter.number⟩
              (greeting format options.name) idle.host.clock.now ++
            handed (steps ++ [.drain]) started ++
            Journal.farewellLines format last
              ⟨idle.host.process, (firstCloser steps closer).number⟩ closing.host.clock.now).map
            Line.posting)
          idle.host.files (shutdown closer (run steps started)).host.files := by
  intro unused
  have hunused : Lives probe format .unused unused :=
    .of_none rfl rfl hclock rfl rfl rfl
  have hnew : Settled .unused unused := fun hclosed => absurd hclosed (by simp)
  have hlives := hunused.perform acts
  refine ⟨hlives.closed_eq, ?_, ?_⟩
  · intro hphase act hstarts
    exact hlives.contents_eq (hunused.settled_perform hnew acts hlosses) hphase hstarts
  · intro before starter options steps last closer rest hacts hstart hcloser idle started closing
    have hbefore := hunused.perform before
    have hsame := hunused.losses_session_eq hcloser (hacts ▸ hlosses)
    have hwritten := hasWritten_session hbefore.spelled hstart hsame
    have hformat := (hbefore.shutdown starter).format_eq
    simp only [hformat] at hwritten
    exact ⟨isMessage_handed _ _, hwritten⟩

/-! ## A whole life -/

/-- A JSON logger that was never started. -/
def beforeLife : Hosted Logger := ⟨.idle "info" .json .zero .threadFlag, .initial (.steady 0 0) 1⟩

/-- A message too early, a session that is closed twice, and a message too late. -/
def wholeLife : List Act :=
  [.step (.log Host.firstThread ⟨.error, .ofText "early"⟩),
    .start Host.firstThread (.ofPath "app.log" "app"),
    .step (.log Host.firstThread ⟨.error, .ofText "work"⟩), .step (.close Host.firstThread),
    .step (.log Host.firstThread ⟨.error, .ofText "late"⟩), .shutdown Host.firstThread]

/-- The closed session has one farewell, and nothing is written after it. -/
theorem wholeLife_says_farewell :
    let last := perform wholeLife beforeLife
    let line := fun severity text => Posting.mk ⟨1, 1⟩ ⟨severity, text, .ofDuration .zero⟩
    last.item.closed = true ∧
    (∀ act : Act, act.starts last = false →
      (act.apply last).host.files.contents = last.host.files.contents) ∧
    (SinkOptions.ofPath "app.log" "app").HasWritten .json
      [line .info "\x7b \"status\": \"Started\" \x7d", line .error "work",
        line .info "\x7b \"status\": \"Finished\" \x7d"] .initial last.host.files := by
  intro last line
  let early : List Act := [.step (.log Host.firstThread ⟨.error, .ofText "early"⟩)]
  let steps : List Step := [.log Host.firstThread ⟨.error, .ofText "work"⟩, .close Host.firstThread,
    .log Host.firstThread ⟨.error, .ofText "late"⟩]
  obtain ⟨hclosed, hcontents, hsessions⟩ := @lifecycle "info" .json .zero .threadFlag
    (.initial (.steady 0 0) 1) Clock.isSpelled_still wholeLife (by decide +kernel)
  have hphase : phaseAfter wholeLife beforeLife = .ended := by decide +kernel
  obtain ⟨-, opened, closing, hopened, hclosing, hwritten⟩ :=
    hsessions early Host.firstThread (.ofPath "app.log" "app") steps (.shutdown Host.firstThread)
      Host.firstThread [] rfl (by decide +kernel) rfl
  obtain rfl : opened = .info := Option.some.inj (hopened.symm.trans (by decide +kernel))
  obtain rfl : closing = .info := Option.some.inj (hclosing.symm.trans (by decide +kernel))
  let idle := shutdown Host.firstThread (perform early beforeLife)
  let started := (start Host.firstThread (.ofPath "app.log" "app") (perform early beforeLife)).1
  have hlines : (Journal.textLines .greeting .info ⟨idle.host.process, Host.firstThread.number⟩
        (greeting .json "app") idle.host.clock.now ++ handed (steps ++ [.drain]) started ++
      Journal.farewellLines .json .info
        ⟨idle.host.process, (firstCloser steps Host.firstThread).number⟩
        (run (untilClosed (steps ++ [.drain])) started).host.clock.now).map Line.posting =
      [line .info "\x7b \"status\": \"Started\" \x7d", line .error "work",
        line .info "\x7b \"status\": \"Finished\" \x7d"] := by decide +kernel
  refine ⟨hclosed.trans (congrArg Phase.isClosed hphase), hcontents ?_, ?_⟩
  · exact fun hrunning => absurd (hphase.symm.trans hrunning) (by decide)
  · rw [← hlines]
    exact hwritten

end Logger

end LogRelay
