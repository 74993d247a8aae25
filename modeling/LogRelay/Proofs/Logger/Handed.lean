import LogRelay.Proofs.Logger.Accounting
import LogRelay.Proofs.Logger.Lifetime
import Mathlib.Data.List.DropRight
import Mathlib.Data.List.Induction

/-!
# What a run hands to the sink

The lines between the first and the last text of a session are read off the states of its run. A call of an
ordinary thread hands over its own line, a pass of the relaying worker hands over the messages that wait and
a report of those that were refused, and nothing is handed over once the log is closed. The lines of a run
follow from those of its steps.
-/

namespace LogRelay

namespace Logger

/-- What is found at the steps of a run. -/
def along {α : Type} (find : Step → Hosted Logger → List α) : List Step → Hosted Logger → List α
  | [], _ => []
  | step :: rest, state => find step state ++ along find rest (Logger.step step state)

/-- What the capture of a logger lets through when a step is taken, and whether the queue refuses it. -/
def captures? (step : Step) (state : Hosted Logger) : Option EnabledCall :=
  match step, state.item.session with
  | .log thread call, some session =>
      let level := call.severity.toLevel
      let now := state.host.clock.now
      if !state.item.closed && state.item.probe.ask thread.flag && session.capture.isEnabled level then
        some ⟨⟨level, now, call.payload.kept (Session.messageSize - 1)⟩,
          (session.capture.queue.pushWith fun slot => slot.set level now call.payload).1 = .refused⟩
      else none
  | _, _ => none

/-- The calls that the capture lets through in a run. -/
def captured : List Step → Hosted Logger → List EnabledCall :=
  along fun step state => (captures? step state).toList

/-- Number of calls that the queue refuses in a run. -/
def refusals (steps : List Step) (state : Hosted Logger) : Nat :=
  EnabledCall.refusals (captured steps state)

/-- The call that the queue of a logger takes when a step is taken. -/
def accepts? (step : Step) (state : Hosted Logger) : Option View :=
  match step, state.item.session with
  | .log thread call, some session =>
      let level := call.severity.toLevel
      let now := state.host.clock.now
      if !state.item.closed && state.item.probe.ask thread.flag && session.capture.isEnabled level &&
          (session.capture.queue.pushWith fun slot => slot.set level now call.payload).1 =
            .finished () then
        some ⟨level, now, call.payload.kept (Session.messageSize - 1)⟩
      else none
  | _, _ => none

/-- The calls that the queue takes in a run. -/
def accepted : List Step → Hosted Logger → List View :=
  along fun step state => (accepts? step state).toList

/-- What a logger makes its sink write at once when a step is taken. -/
def writes? (step : Step) (state : Hosted Logger) : Option Posting :=
  match step, state.item.session with
  | .log thread call, some session =>
      if !state.item.closed && !state.item.probe.ask thread.flag &&
          session.sink.wants call.severity then
        call.payload.text?.map fun text =>
          ⟨⟨state.host.process, thread.number⟩,
            ⟨call.severity, text, .ofDuration state.host.clock.now⟩⟩
      else none
  | _, _ => none

/-- What is written at once in a run. -/
def written : List Step → Hosted Logger → List Posting :=
  along fun step state => (writes? step state).toList

/-- The captured calls that wait. -/
def waiting (logger : Logger) : List View :=
  match logger.session with
  | some session => session.capture.queue.waiting.map Message.view
  | none => []

/-- What the capture of a logger would hand over now. -/
def due (state : Hosted Logger) : List Delivery :=
  state.item.waiting.map .call ++
    if state.item.dropped = 0 then [] else [.report state.host.clock.now state.item.dropped]

/-- The lines of a pass: what is due, as far as the sink wants it, and nothing once the log is closed. -/
def relays (state : Hosted Logger) : List Line :=
  match state.item.session with
  | some session =>
      if state.item.closed then []
      else
        ((due state).map (.relayed (Session.drainOrigin ⟨session, state.host⟩))).filter fun line =>
          session.sink.wants line.posting.record.severity
  | none => []

/-- The lines that a step hands to the sink, apart from a text of the session itself. -/
def hands (step : Step) (state : Hosted Logger) : List Line :=
  match step with
  | .log _ _ => ((writes? step state).map Line.call).toList
  | .drain => relays state
  | .flush | .setLevel _ | .close _ => []

/-- The lines that a run hands to the sink, apart from the texts of the session itself. -/
def handed : List Step → Hosted Logger → List Line := along hands

/-- The steps up to the last pass of the relaying worker. -/
def untilLastPass (steps : List Step) : List Step := steps.rdropWhile (· ≠ .drain)

theorem along_append {α : Type} (find : Step → Hosted Logger → List α) (front back : List Step)
    (state : Hosted Logger) :
    along find (front ++ back) state = along find front state ++ along find back (run front state) := by
  induction front generalizing state with
  | nil => rfl
  | cons step rest induction =>
      rw [List.cons_append, along, along, induction, List.append_assoc]
      rfl

theorem along_concat {α : Type} (find : Step → Hosted Logger → List α) (front : List Step)
    (step : Step) (state : Hosted Logger) :
    along find (front ++ [step]) state = along find front state ++ find step (run front state) := by
  rw [along_append, along, along, List.append_nil]

theorem refusals_append (front back : List Step) (state : Hosted Logger) :
    refusals (front ++ back) state = refusals front state + refusals back (run front state) := by
  rw [refusals, captured, along_append, EnabledCall.refusals_append]
  rfl

theorem untilLastPass_concat (steps : List Step) (step : Step) :
    untilLastPass (steps ++ [step]) =
      if step = .drain then steps ++ [step] else untilLastPass steps := by
  rw [untilLastPass, List.rdropWhile_concat]
  by_cases hdrain : step = .drain
  · simp [hdrain]
  · simp [hdrain, untilLastPass]

/-- The steps up to the last pass end with one, and no pass is made after them. -/
theorem exists_untilLastPass (steps : List Step) :
    ∃ since, steps = untilLastPass steps ++ since ∧ .drain ∉ since ∧
      (untilLastPass steps = [] ∨ ∃ front, untilLastPass steps = front ++ [.drain]) := by
  induction steps using List.reverseRecOn with
  | nil => exact ⟨[], rfl, List.not_mem_nil, .inl rfl⟩
  | append_singleton before step induction =>
      rw [untilLastPass_concat]
      by_cases hdrain : step = .drain
      · rw [if_pos hdrain]
        exact ⟨[], (List.append_nil _).symm, List.not_mem_nil, .inr ⟨before, by rw [hdrain]⟩⟩
      · obtain ⟨since, hsplit, hsince, hends⟩ := induction
        rw [if_neg hdrain]
        refine ⟨since ++ [step], by rw [← List.append_assoc, ← hsplit], ?_, hends⟩
        rw [List.mem_append, List.mem_singleton]
        rintro (hmem | hlast)
        · exact hsince hmem
        · exact hdrain hlast.symm

variable {probe : Probe} {format : LogFormat} {footing : Session.Footing} {journal : Journal}
  {state : Hosted Logger}

/-- What a run hands over are messages, and no texts of the session itself. -/
theorem isMessage_handed (steps : List Step) (state : Hosted Logger) :
    ∀ line ∈ handed steps state, line.isMessage = true := by
  induction steps generalizing state with
  | nil => exact fun line hmem => absurd hmem List.not_mem_nil
  | cons step rest induction =>
      intro line hmem
      rcases List.mem_append.1 hmem with hstep | hrest
      · cases step with
        | log thread call =>
            obtain ⟨posting, -, rfl⟩ := Option.map_eq_some_iff.1 (Option.mem_toList.1 hstep)
            rfl
        | drain =>
            rw [hands, relays] at hstep
            split at hstep
            · split at hstep
              · exact absurd hstep List.not_mem_nil
              · obtain ⟨delivery, -, rfl⟩ := List.mem_map.1 (List.mem_filter.1 hstep).1
                rfl
            · exact absurd hstep List.not_mem_nil
        | _ => exact absurd hstep List.not_mem_nil
      · exact induction _ line hrest

/-! ## What the journal knows of a step -/

theorem Keeps.waiting_eq (hkeeps : Keeps probe format footing journal state) :
    state.item.waiting = journal.backlog.waiting := by
  obtain ⟨session, hsession, hsessionKeeps⟩ := hkeeps.session
  rw [waiting, hsession]
  exact hsessionKeeps.capture.waiting_eq

theorem Keeps.captures?_eq (hkeeps : Keeps probe format footing journal state)
    (hopen : journal.closed = false) (thread : Thread) (call : LogCall) :
    captures? (.log thread call) state =
      if probe.ask thread.flag && call.severity.toLevel.passes journal.backlog.level then
        some ⟨⟨call.severity.toLevel, journal.clock.now,
          call.payload.kept (Session.messageSize - 1)⟩,
          journal.backlog.waiting.length = Session.slotCount⟩
      else none := by
  obtain ⟨session, hsession, hsessionKeeps⟩ := hkeeps.session
  have hclock : state.host.clock = journal.clock := hsessionKeeps.clock_eq
  have henabled := hsessionKeeps.capture.isEnabled_eq call.severity.toLevel
  have hrefused := hsessionKeeps.capture.refused_iff fun slot =>
    slot.set call.severity.toLevel journal.clock.now call.payload
  simp only [captures?, hsession, hkeeps.closed_eq, hopen, hkeeps.probe_eq, henabled, hclock,
    hrefused, Bool.not_false, Bool.true_and]

theorem Keeps.accepts?_eq (hkeeps : Keeps probe format footing journal state)
    (hopen : journal.closed = false) (thread : Thread) (call : LogCall) :
    accepts? (.log thread call) state =
      if probe.ask thread.flag then
        journal.backlog.taken? Session.slotCount (Session.messageSize - 1) journal.clock.now
          call.severity.toLevel call.payload
      else none := by
  obtain ⟨session, hsession, hsessionKeeps⟩ := hkeeps.session
  have hclock : state.host.clock = journal.clock := hsessionKeeps.clock_eq
  have henabled := hsessionKeeps.capture.isEnabled_eq call.severity.toLevel
  have hfinished := hsessionKeeps.capture.finished_iff call.severity.toLevel journal.clock.now
    call.payload
  simp only [accepts?, hsession, hkeeps.closed_eq, hopen, hkeeps.probe_eq, henabled, hclock,
    hfinished, Bool.not_false, Bool.true_and, Backlog.taken?]
  cases probe.ask thread.flag <;> simp

theorem Keeps.writes?_eq (hkeeps : Keeps probe format footing journal state) (thread : Thread)
    (call : LogCall) :
    writes? (.log thread call) state =
      if journal.closed || probe.ask thread.flag then none
      else journal.posting? thread.number call := by
  obtain ⟨session, hsession, hsessionKeeps⟩ := hkeeps.session
  have hclock : state.host.clock = journal.clock := hsessionKeeps.clock_eq
  have hprocess : state.host.process = journal.process := hsessionKeeps.process_eq
  have hwants : session.sink.wants call.severity = call.severity.reaches journal.threshold := by
    rw [Sink.wants, hsessionKeeps.threshold_eq]
  simp only [writes?, hsession, hkeeps.closed_eq, hkeeps.probe_eq, hwants, hclock, hprocess,
    Journal.posting?]
  cases journal.closed <;> cases probe.ask thread.flag <;> simp

theorem Keeps.relays_eq (hkeeps : Keeps probe format footing journal state) :
    relays state = journal.dueLines := by
  have hwaiting := hkeeps.waiting_eq
  have hdropped := hkeeps.dropped_eq
  obtain ⟨session, hsession, hsessionKeeps⟩ := hkeeps.session
  have hclock : state.host.clock = journal.clock := hsessionKeeps.clock_eq
  have hdue : due state = journal.backlog.due journal.clock.now := by
    rw [due, hwaiting, hdropped, hclock, Backlog.due]
  have horigin : Session.drainOrigin ⟨session, state.host⟩ = ⟨journal.process, journal.drainer⟩ := by
    rw [Session.drainOrigin, hsessionKeeps.drainer_eq, hsessionKeeps.process_eq]
  have hwants : ∀ severity, session.sink.wants severity = severity.reaches journal.threshold := by
    intro severity
    rw [Sink.wants, hsessionKeeps.threshold_eq]
  rw [Journal.dueLines]
  simp only [relays, hsession, hkeeps.closed_eq, hdue, horigin, hwants, Posting.reaches]

/-- The lines that a step hands over are the new lines of the journal, unless it closes the log. -/
theorem Keeps.lines_step (hkeeps : Keeps probe format footing journal state) {step : Step}
    (hother : step.isClose = false) :
    (journal.step probe format step).lines = journal.lines ++ hands step state := by
  cases step with
  | close thread => exact absurd hother.symm Bool.false_ne_true
  | drain => rw [hands, hkeeps.relays_eq, Journal.step, Journal.pass]
  | flush => exact (List.append_nil _).symm
  | setLevel text =>
      rw [hands, List.append_nil, Journal.step, Journal.setLevel]
      split <;> rfl
  | log thread call =>
      rw [hands, hkeeps.writes?_eq, Journal.step]
      cases journal.closed with
      | true => simp
      | false => cases probe.ask thread.flag <;> simp [Journal.write, Journal.capture]

end Logger

/-! ## Closing once -/

namespace Journal

variable {journal : Journal} {format : LogFormat} {probe : Probe}

theorem lines_pass_of_closed (hclosed : journal.closed = true) :
    journal.pass.lines = journal.lines := by
  rw [pass, dueLines, if_pos hclosed, List.append_nil]

theorem lines_step_of_closed (hclosed : journal.closed = true) (step : Logger.Step) :
    (journal.step probe format step).lines = journal.lines := by
  cases step with
  | log thread call => rw [Journal.step, if_pos hclosed]
  | drain => exact lines_pass_of_closed hclosed
  | flush => rfl
  | setLevel text =>
      rw [Journal.step, setLevel]
      split <;> rfl
  | close thread => rw [Journal.step, close, if_pos hclosed]

theorem lines_finish_of_closed (hclosed : journal.closed = true) (thread : Nat) :
    (journal.finish format thread).lines = journal.lines := by
  have hpassed : journal.pass.closed = true := hclosed
  rw [finish, close, if_pos hpassed, lines_pass_of_closed hclosed]

theorem lines_finish_run_of_closed (hclosed : journal.closed = true) (steps : List Logger.Step)
    (thread : Nat) : ((journal.run probe format steps).finish format thread).lines = journal.lines := by
  induction steps generalizing journal with
  | nil => exact lines_finish_of_closed hclosed thread
  | cons step rest induction =>
      have hstep : (journal.step probe format step).closed = true := by
        rw [closed_step, hclosed, Bool.true_or]
      exact (induction hstep).trans (lines_step_of_closed hclosed step)

theorem lines_finish_of_close (hopen : journal.closed = false) (closer ender : Nat)
    (later : List Logger.Step) :
    (((journal.close format closer).run probe format later).finish format ender).lines =
      journal.lines ++
        farewellLines format journal.threshold ⟨journal.process, closer⟩ journal.clock.now := by
  have hfalse : ¬journal.closed = true := by simp [hopen]
  have hclosed : (journal.close format closer).closed = true ∧
      (journal.close format closer).lines = (journal.sayFarewell format closer).lines := by
    simp only [close, if_neg hfalse, and_self]
  rw [lines_finish_run_of_closed hclosed.1, hclosed.2, lines_sayFarewell]

end Journal

namespace Logger

variable {probe : Probe} {format : LogFormat} {footing : Session.Footing} {journal : Journal}
  {state : Hosted Logger}

/-- The steps before the log is closed. -/
def untilClosed (steps : List Step) : List Step := steps.takeWhile fun step => !step.isClose

/-- The thread that closes the log in a step. -/
def Step.closer? : Step → Option Thread
  | close thread => some thread
  | _ => none

theorem closer?_eq_none {step : Step} (hother : step.isClose = false) : step.closer? = none := by
  cases step with
  | close thread => exact absurd hother.symm Bool.false_ne_true
  | _ => rfl

/-- The thread that says the farewell when some steps are taken and a thread ends the session. -/
def firstCloser (steps : List Step) (ender : Thread) : Thread :=
  (steps.findSome? Step.closer?).getD ender

theorem handed_of_closed (hkeeps : Keeps probe format footing journal state)
    (hclosed : journal.closed = true) (steps : List Step) : handed steps state = [] := by
  induction steps generalizing state journal with
  | nil => rfl
  | cons step rest induction =>
      have hnone : hands step state = [] := by
        cases step with
        | log thread call =>
            rw [hands, hkeeps.writes?_eq, hclosed]
            rfl
        | drain => rw [hands, hkeeps.relays_eq, Journal.dueLines, if_pos hclosed]
        | _ => rfl
      have hstill : (journal.step probe format step).closed = true := by
        rw [Journal.closed_step, hclosed, Bool.true_or]
      rw [handed, along, hnone]
      exact induction (hkeeps.step step) hstill

/-- The lines of a session when it ends: those that it had, those handed over by its run and by a last pass,
and the farewell of the moment in which its log is first closed. -/
theorem Keeps.lines_finish_run (hkeeps : Keeps probe format footing journal state)
    (hopen : journal.closed = false) (steps : List Step) (ender : Thread) :
    let closing := journal.run probe format (untilClosed (steps ++ [.drain]))
    ((journal.run probe format steps).finish format ender.number).lines =
      journal.lines ++ handed (steps ++ [.drain]) state ++
        Journal.farewellLines format closing.threshold
          ⟨journal.process, (firstCloser steps ender).number⟩ closing.clock.now := by
  induction steps generalizing journal state with
  | nil =>
      have hpass := @Keeps.lines_step probe format footing journal state hkeeps .drain rfl
      intro closing
      rw [List.nil_append, handed, along, along, List.append_nil, ← hpass]
      exact Journal.lines_finish_of_open hopen format ender.number
  | cons step rest induction =>
      cases hstep : step.isClose with
      | false =>
          have huntil : untilClosed (step :: rest ++ [.drain]) = step :: untilClosed (rest ++ [.drain]) :=
            List.takeWhile_cons_of_pos (by rw [hstep, Bool.not_false])
          have hcloser : firstCloser (step :: rest) ender = firstCloser rest ender := by
            rw [firstCloser, List.findSome?_cons, closer?_eq_none hstep]
            rfl
          have hstill : (journal.step probe format step).closed = false := by
            rw [Journal.closed_step, hopen, hstep, Bool.or_false]
          have hrest := induction (hkeeps.step step) hstill
          rw [hkeeps.lines_step hstep, Journal.process_step, List.append_assoc journal.lines] at hrest
          intro closing
          rw [hcloser]
          simp only [closing, huntil]
          exact hrest
      | true =>
          obtain ⟨closer, rfl⟩ : ∃ closer, step = .close closer := by
            cases step with
            | close closer => exact ⟨closer, rfl⟩
            | _ => exact absurd hstep Bool.false_ne_true
          have hnone : handed (.close closer :: rest ++ [.drain]) state = [] := by
            have hclosed : (journal.step probe format (.close closer)).closed = true := by
              rw [Journal.closed_step, hstep, Bool.or_true]
            exact handed_of_closed (hkeeps.step (.close closer)) hclosed (rest ++ [.drain])
          rw [hnone, List.append_nil]
          exact Journal.lines_finish_of_close hopen closer.number ender.number rest

end Logger

end LogRelay
