import LogRelay.Proofs.Logger.Lifetime
import Mathlib.Data.List.Infix

/-!
# The two routes of a logger

A message from an ordinary thread is filtered once, by its severity. A message from a real-time thread is
filtered twice: by its level when it is captured, and by the severity of its level when it is relayed. No
level stands for `critical`, so both routes record the same notes, a critical one as an error, unless the
threshold is `critical`: what was captured never reaches it.
-/

namespace LogRelay

/-- What a call says. -/
def LogCall.note (call : LogCall) : Note := ⟨call.severity, call.payload.spell.1⟩

/-- The payload of a call writes itself without failing, and its text fits into a captured message. -/
structure LogCall.Fits (call : LogCall) : Prop where
  /-- The payload writes its text. -/
  text?_eq : call.payload.text? = some call.note.text
  /-- The text fits. -/
  size_lt : Utf8.size call.note.text.toList < Session.messageSize

/-- The note as it is recorded when it was captured. -/
def Note.captured (note : Note) : Note := ⟨note.severity.toLevel.toSeverity, note.text⟩

/-- What a note becomes on a route. -/
def Note.onRoute (realtime : Bool) (note : Note) : Note := if realtime then note.captured else note

/-- What a captured message says when it is relayed. -/
def View.note (view : View) : Note := ⟨view.level.toSeverity, view.text⟩

/-- How the calls of a logger are made: what finds out whether a thread is real-time, and what happens while
the logger runs. -/
structure Route where
  /-- How a caller is found to be real-time. -/
  probe : Probe
  /-- What happens while the logger runs. -/
  steps : List Logger.Step

namespace Route

/-- The calls, in order. -/
def calls (route : Route) : List LogCall := route.steps.filterMap Logger.Step.call?

/-- Every call is made by a thread that is found to be real-time, or every call by one that is not. -/
def IsMadeBy (realtime : Bool) (route : Route) : Prop :=
  ∀ thread call, .log thread call ∈ route.steps → route.probe.ask thread.flag = realtime

end Route

/-- A logger to be started on a host, apart from how it is called. -/
structure Launch where
  /-- Name of the threshold. -/
  level : String
  /-- How lines are written. -/
  format : LogFormat
  /-- Time between two passes of the relaying worker. -/
  period : Duration
  /-- Settings of the sink. -/
  options : SinkOptions
  /-- The host. -/
  host : Host
  /-- The thread that starts the logger. -/
  starter : Thread
  /-- The thread that shuts it down. -/
  closer : Thread

namespace Launch

/-- The logger before it is started. -/
def before (launch : Launch) (route : Route) : Hosted Logger :=
  ⟨.idle launch.level launch.format launch.period route.probe, launch.host⟩

/-- Starts the logger. -/
def start (launch : Launch) (route : Route) : Hosted Logger × Except LogError Unit :=
  Logger.start launch.starter launch.options (launch.before route)

/-- Starts the logger and takes some steps. -/
def run (launch : Launch) (route : Route) (steps : List Logger.Step) : Hosted Logger :=
  Logger.run steps (launch.start route).1

/-- Starts the logger, takes the steps of a route and shuts the logger down. -/
def finish (launch : Launch) (route : Route) : Hosted Logger :=
  Logger.shutdown launch.closer (launch.run route route.steps)

/-- The logger starts, all steps are plain and all calls fit, no message is refused by the queue and no fault
is reported. -/
structure IsCalm (launch : Launch) (route : Route) : Prop where
  /-- The logger starts. -/
  starts : (launch.start route).2 = .ok ()
  /-- The threshold stays and the log is not closed. -/
  plain : ∀ step ∈ route.steps, step.isPlain = true
  /-- Every call fits. -/
  fits : ∀ call ∈ route.calls, call.Fits
  /-- No message is refused. -/
  dropped_eq : ∀ front, front <+: route.steps → (launch.run route front).item.dropped = 0
  /-- No fault is reported. -/
  faults_eq : (launch.finish route).host.count Event.isFault = launch.host.count Event.isFault

/-- The first and the last note of a session around others, as far as these reach the threshold. -/
def framed (launch : Launch) (threshold : Severity) (notes : List Note) : List Note :=
  [⟨.info, Logger.greeting launch.format launch.options.name⟩].filter (Note.reaches threshold) ++
    notes ++
    ((Logger.farewell? launch.format).toList.map (Note.mk .info)).filter (Note.reaches threshold)

/-- A session that left a tree has logged postings that say some notes between the first and the last one. -/
def HasNoted (launch : Launch) (threshold : Severity) (notes : List Note) (left : FileTree) : Prop :=
  ∃ postings, postings.map Posting.note = launch.framed threshold notes ∧
    launch.options.HasLogged launch.format postings launch.host.files left

end Launch

/-! ## One call -/

theorem Level.passes_of_reaches {level : Level} {threshold : Severity}
    (hreaches : level.toSeverity.reaches threshold = true) :
    level.passes threshold.toLevel = true := by
  cases level <;> cases threshold <;> first | rfl | exact absurd hreaches (by decide)

namespace Journal

variable {threshold : Severity} {journal : Journal} {probe : Probe} {format : LogFormat}

/-- A journal without changes of the threshold, refused calls and a closed log. -/
structure Calm (threshold : Severity) (journal : Journal) : Prop where
  /-- The threshold is the same. -/
  threshold_eq : journal.threshold = threshold
  /-- The level of the capture is that of the threshold. -/
  level_eq : journal.backlog.level = threshold.toLevel
  /-- No call was refused. -/
  refused_eq : journal.backlog.refused = 0
  /-- The log is open. -/
  closed_eq : journal.closed = false

/-- What has been said, and what is due. -/
def spoken (journal : Journal) : List Note :=
  (journal.lines ++ journal.dueLines).map fun line => line.posting.note

theorem Calm.spoken_eq (hcalm : Calm threshold journal) :
    journal.spoken = (journal.lines.map fun line => line.posting.note) ++
      (journal.backlog.waiting.map View.note).filter (Note.reaches threshold) := by
  have hcounted : journal.backlog.counted = 0 := by
    rw [Backlog.counted, hcalm.refused_eq, Nat.zero_mod]
  rw [spoken, List.map_append, dueLines, hcalm.closed_eq, hcalm.threshold_eq, Backlog.due,
    if_pos hcounted, List.append_nil, if_neg Bool.false_ne_true, List.map_map, List.filter_map,
    List.map_map, List.filter_map]
  rfl

theorem Calm.pass (hcalm : Calm threshold journal) :
    Calm threshold journal.pass ∧ journal.pass.spoken = journal.spoken ∧
      journal.pass.lines.map (fun line => line.posting.note) = journal.spoken := by
  have hpass : Calm threshold journal.pass :=
    ⟨hcalm.threshold_eq, hcalm.level_eq, rfl, hcalm.closed_eq⟩
  refine ⟨hpass, ?_, rfl⟩
  rw [hpass.spoken_eq]
  exact List.append_nil _

/-- A call of an ordinary thread says its note if that reaches the threshold. -/
theorem Calm.write (hcalm : Calm threshold journal) (hwaiting : journal.backlog.waiting = [])
    {line : Posting → Line} (hline : ∀ posting, (line posting).posting = posting) (thread : Nat)
    {call : LogCall} (htext : call.payload.text? = some call.note.text) :
    Calm threshold (journal.write line thread call) ∧
      (journal.write line thread call).spoken =
        journal.spoken ++ [call.note].filter (Note.reaches threshold) := by
  have hwrite : Calm threshold (journal.write line thread call) :=
    ⟨hcalm.threshold_eq, hcalm.level_eq, hcalm.refused_eq, hcalm.closed_eq⟩
  refine ⟨hwrite, ?_⟩
  have hbacklog : (journal.write line thread call).backlog.waiting = [] := hwaiting
  rw [hwrite.spoken_eq, hcalm.spoken_eq, hbacklog, hwaiting, List.map_nil, List.filter_nil,
    List.append_nil, List.append_nil, Journal.write, List.map_append]
  congr 1
  have hreaches : Note.reaches threshold call.note = call.severity.reaches threshold := rfl
  rw [posting?, hcalm.threshold_eq, htext, List.filter_cons, hreaches, List.filter_nil]
  split
  · simp only [Option.map_some, Option.toList_some, List.map_cons, List.map_nil, hline]
    rfl
  · rfl

/-- A call that is let through and not refused waits behind the others. -/
theorem Calm.backlog_of_passes (hcalm : Calm threshold journal) {call : LogCall} (hfits : call.Fits)
    (hpasses : call.severity.toLevel.passes threshold.toLevel = true)
    (hcounted : (journal.capture call.severity.toLevel call.payload).backlog.counted = 0) :
    (journal.capture call.severity.toLevel call.payload).backlog =
      { journal.backlog with
        waiting := journal.backlog.waiting ++
          [⟨call.severity.toLevel, journal.clock.now, call.payload.kept 2047⟩] } := by
  have hroom : ¬journal.backlog.waiting.length = Session.slotCount := by
    intro hfull
    have hrefused : (journal.capture call.severity.toLevel call.payload).backlog.refused = 1 := by
      simp only [Journal.capture, Backlog.log, hcalm.level_eq, hpasses, hfull, if_true,
        hcalm.refused_eq]
    rw [Backlog.counted, hrefused] at hcounted
    exact absurd hcounted (by decide)
  have hending : ¬(call.payload.fill 2047).ending = .brokeDown :=
    Payload.ending_fill_ne_brokeDown (Payload.text?_eq_some.1 hfits.text?_eq).1
  simp only [Journal.capture, Backlog.log, hcalm.level_eq, hpasses, if_true, if_neg hroom]
  exact if_neg hending

/-- A call of a real-time thread that is not refused says its note as it is captured, if that reaches the
threshold. -/
theorem Calm.capture (hcalm : Calm threshold journal) {call : LogCall} (hfits : call.Fits)
    (hcounted : (journal.capture call.severity.toLevel call.payload).backlog.counted = 0) :
    Calm threshold (journal.capture call.severity.toLevel call.payload) ∧
      (journal.capture call.severity.toLevel call.payload).spoken =
        journal.spoken ++ [call.note.captured].filter (Note.reaches threshold) := by
  let next := journal.capture call.severity.toLevel call.payload
  have hlines : next.lines = journal.lines := rfl
  by_cases hpasses : call.severity.toLevel.passes threshold.toLevel = true
  · let view : View := ⟨call.severity.toLevel, journal.clock.now, call.payload.kept 2047⟩
    have hnote : view.note = call.note.captured :=
      congrArg (Note.mk _) (Payload.kept_of_size_le hfits.text?_eq (Nat.le_of_lt_succ hfits.size_lt))
    have hbacklog : next.backlog =
        { journal.backlog with waiting := journal.backlog.waiting ++ [view] } :=
      hcalm.backlog_of_passes hfits hpasses hcounted
    have hnext : Calm threshold next :=
      ⟨hcalm.threshold_eq, (congrArg Backlog.level hbacklog).trans hcalm.level_eq,
        (congrArg Backlog.refused hbacklog).trans hcalm.refused_eq, hcalm.closed_eq⟩
    refine ⟨hnext, ?_⟩
    rw [hnext.spoken_eq, hcalm.spoken_eq, hbacklog, hlines, List.map_append, List.filter_append,
      List.map_singleton, hnote, List.append_assoc]
  · have hbacklog : next.backlog = journal.backlog := by
      simp only [next, Journal.capture, Backlog.log, hcalm.level_eq, if_neg hpasses]
    have hnext : Calm threshold next :=
      ⟨hcalm.threshold_eq, (congrArg Backlog.level hbacklog).trans hcalm.level_eq,
        (congrArg Backlog.refused hbacklog).trans hcalm.refused_eq, hcalm.closed_eq⟩
    have hreaches : ¬Note.reaches threshold call.note.captured = true := fun hreaches =>
      hpasses (Level.passes_of_reaches hreaches)
    refine ⟨hnext, ?_⟩
    rw [hnext.spoken_eq, hcalm.spoken_eq, hbacklog, hlines, List.filter_cons_of_neg hreaches,
      List.filter_nil, List.append_nil]

/-- Every step adds what its call says. On an ordinary thread nothing waits. -/
theorem Calm.step {realtime : Bool} (hcalm : Calm threshold journal)
    (hwaiting : realtime = false → journal.backlog.waiting = []) {step : Logger.Step}
    (hplain : step.isPlain = true) (hfits : ∀ call ∈ step.call?, call.Fits)
    (hmade : ∀ thread call, step = .log thread call → probe.ask thread.flag = realtime)
    (hcounted : (journal.step probe format step).backlog.counted = 0) :
    Calm threshold (journal.step probe format step) ∧
      (realtime = false → (journal.step probe format step).backlog.waiting = []) ∧
      (journal.step probe format step).spoken = journal.spoken ++
        (step.call?.toList.map fun call => call.note.onRoute realtime).filter
          (Note.reaches threshold) := by
  cases step with
  | setLevel text => exact absurd hplain Bool.false_ne_true
  | close thread => exact absurd hplain Bool.false_ne_true
  | flush => exact ⟨hcalm, hwaiting, (List.append_nil _).symm⟩
  | drain =>
      obtain ⟨hpass, hspoken, -⟩ := hcalm.pass
      exact ⟨hpass, fun _ => rfl, hspoken.trans (List.append_nil _).symm⟩
  | log thread call =>
      have hcall : call.Fits := hfits call rfl
      have hask := hmade thread call rfl
      have hopen : ¬journal.closed = true := by simp [hcalm.closed_eq]
      rw [Journal.step, if_neg hopen, hask] at hcounted ⊢
      cases realtime with
      | false =>
          obtain ⟨hwrite, hspoken⟩ := hcalm.write (hwaiting rfl)
            (fun posting => (rfl : (Line.call posting).posting = posting)) thread.number
            hcall.text?_eq
          exact ⟨hwrite, fun _ => hwaiting rfl, hspoken⟩
      | true =>
          obtain ⟨hcaptured, hspoken⟩ := hcalm.capture hcall hcounted
          exact ⟨hcaptured, fun hrealtime => absurd hrealtime.symm Bool.false_ne_true, hspoken⟩

/-- Every run of steps adds what its calls say. -/
theorem Calm.run {realtime : Bool} (hcalm : Calm threshold journal)
    (hwaiting : realtime = false → journal.backlog.waiting = []) {steps : List Logger.Step}
    (hplain : ∀ step ∈ steps, step.isPlain = true)
    (hfits : ∀ call ∈ steps.filterMap Logger.Step.call?, call.Fits)
    (hmade : ∀ thread call, .log thread call ∈ steps → probe.ask thread.flag = realtime)
    (hcounted : ∀ front, front <+: steps → (journal.run probe format front).backlog.counted = 0) :
    Calm threshold (journal.run probe format steps) ∧
      (journal.run probe format steps).spoken = journal.spoken ++
        ((steps.filterMap Logger.Step.call?).map fun call => call.note.onRoute realtime).filter
          (Note.reaches threshold) := by
  induction steps generalizing journal with
  | nil => exact ⟨hcalm, (List.append_nil _).symm⟩
  | cons step rest induction =>
      have hfirst : (journal.step probe format step).backlog.counted = 0 :=
        hcounted [step] (List.cons_prefix_cons.2 ⟨rfl, List.nil_prefix⟩)
      have hstepFits : ∀ call ∈ step.call?, call.Fits := by
        intro call hcall
        apply hfits call
        rw [List.filterMap_cons, Option.mem_def.1 hcall]
        exact List.mem_cons_self
      have hrestFits : ∀ call ∈ rest.filterMap Logger.Step.call?, call.Fits := by
        intro call hcall
        apply hfits call
        obtain ⟨next, hnext, hnextCall⟩ := List.mem_filterMap.1 hcall
        exact List.mem_filterMap.2 ⟨next, List.mem_cons_of_mem step hnext, hnextCall⟩
      obtain ⟨hnext, hnextWaiting, hnextSpoken⟩ := hcalm.step hwaiting
        (hplain step List.mem_cons_self) hstepFits
        (fun thread call hstep => hmade thread call (hstep ▸ List.mem_cons_self)) hfirst
      obtain ⟨hlast, hspoken⟩ := induction hnext hnextWaiting
        (fun other hother => hplain other (List.mem_cons_of_mem step hother)) hrestFits
        (fun thread call hmem => hmade thread call (List.mem_cons_of_mem step hmem))
        fun front hfront => hcounted (step :: front) (List.cons_prefix_cons.2 ⟨rfl, hfront⟩)
      refine ⟨hlast, ?_⟩
      change ((journal.step probe format step).run probe format rest).spoken = _
      rw [hspoken, hnextSpoken, List.append_assoc, ← List.filter_append, ← List.map_append]
      congr 3
      cases hcall : step.call? <;> simp [hcall]

theorem Calm.notes_eq (hcalm : Calm threshold journal) (hwaiting : journal.backlog.waiting = []) :
    (journal.lines.map fun line => line.posting.note) = journal.spoken := by
  rw [hcalm.spoken_eq, hwaiting, List.map_nil, List.filter_nil, List.append_nil]

/-- The last pass and the farewell say what is due and the last text. -/
theorem Calm.notes_finish (hcalm : Calm threshold journal) (format : LogFormat) (thread : Nat) :
    ((journal.finish format thread).lines.map fun line => line.posting.note) = journal.spoken ++
      ((Logger.farewell? format).toList.map (Note.mk .info)).filter (Note.reaches threshold) := by
  obtain ⟨hpass, hspoken, -⟩ := hcalm.pass
  have hopen : ¬journal.pass.closed = true := by simp [hpass.closed_eq]
  have hwaiting : journal.pass.backlog.waiting = [] := rfl
  rw [Journal.finish, Journal.close, if_neg hopen, ← hspoken]
  simp only [sayFarewell]
  cases Logger.farewell? format with
  | none =>
      rw [Option.toList_none, List.map_nil, List.filter_nil, List.append_nil]
      exact hpass.notes_eq hwaiting
  | some text =>
      let call : LogCall := ⟨.info, .ofText text⟩
      have hnote : call.note = ⟨.info, text⟩ :=
        congrArg (Note.mk .info) (Payload.text?_eq_some.1 (Payload.text?_ofText text)).2
      have htext : call.payload.text? = some call.note.text := by
        rw [hnote]
        exact Payload.text?_ofText text
      obtain ⟨hwrite, hsaid⟩ := hpass.write hwaiting
        (fun posting => (rfl : (Line.farewell posting).posting = posting)) thread htext
      rw [hnote] at hsaid
      exact (hwrite.notes_eq hwaiting).trans hsaid

end Journal

/-! ## Whole runs -/

/-- What a route leaves in the log. -/
theorem Launch.hasNoted {launch : Launch} {threshold : Severity}
    (hlevel : Severity.parse? launch.level = some threshold)
    (hclock : launch.host.clock.IsSpelled) {route : Route} {realtime : Bool}
    (hmade : route.IsMadeBy realtime) (hcalm : launch.IsCalm route) :
    launch.HasNoted threshold
      ((route.calls.map fun call => call.note.onRoute realtime).filter (Note.reaches threshold))
      (launch.finish route).host.files := by
  obtain ⟨started, claim, files, sink, hstarts⟩ := Logger.starts_of_ok hcalm.starts
  obtain rfl : threshold = started := Option.some.inj (hlevel.symm.trans hstarts.parse_eq)
  have hkeeps := Logger.keeps_start hstarts hclock
  let greeting := Logger.greetingCall launch.format launch.options.name
  let opened := Logger.openedJournal launch.starter launch.options (launch.before route) threshold
  have hgreeting : greeting.note = ⟨.info, Logger.greeting launch.format launch.options.name⟩ :=
    congrArg (Note.mk .info) (Payload.text?_eq_some.1 (Payload.text?_ofText _)).2
  have htext : greeting.payload.text? = some greeting.note.text := by
    rw [hgreeting]
    exact Payload.text?_ofText _
  have hfresh : Journal.Calm threshold (.start threshold launch.host.clock launch.host.process
      (launch.host.lastThread + 1)) := ⟨rfl, rfl, rfl, rfl⟩
  obtain ⟨hopened, hsaid⟩ : Journal.Calm threshold opened ∧
      opened.spoken = [greeting.note].filter (Note.reaches threshold) :=
    hfresh.write rfl (fun posting => (rfl : (Line.greeting posting).posting = posting))
      launch.starter.number htext
  have hcounted : ∀ front, front <+: route.steps →
      (opened.run route.probe launch.format front).backlog.counted = 0 := by
    intro front hfront
    rw [← hcalm.dropped_eq front hfront]
    exact (hkeeps.run front).dropped_eq.symm
  obtain ⟨hlast, hspoken⟩ := hopened.run (fun _ => rfl) hcalm.plain hcalm.fits hmade hcounted
  have hfaults : (launch.finish route).host.count Event.isFault =
      (Logger.openedFooting launch.starter launch.options (launch.before route) claim files
        sink).opened.count Event.isFault :=
    hcalm.faults_eq.trans (Logger.count_claim _ _ _ _ fun _ hfault => hfault).symm
  have hlogged := (hkeeps.run route.steps).hasLogged launch.closer hstarts.open_eq hfaults
  refine ⟨_, ?_, hlogged⟩
  have hnotes := hlast.notes_finish launch.format launch.closer.number
  rw [hspoken, hsaid, hgreeting] at hnotes
  exact List.map_map.trans hnotes

theorem Note.reaches_captured {threshold : Severity} (hthreshold : threshold ≠ .critical)
    (note : Note) : note.captured.reaches threshold = note.reaches threshold := by
  obtain ⟨severity, text⟩ := note
  cases severity <;> cases threshold <;> first | rfl | contradiction

theorem Note.reaches_critical_captured (note : Note) :
    note.captured.reaches .critical = false := by
  obtain ⟨severity, text⟩ := note
  cases severity <;> rfl

theorem Note.reaches_critical {note : Note} :
    note.reaches .critical = true ↔ note.severity = .critical := by
  obtain ⟨severity, text⟩ := note
  cases severity <;> simp [reaches, Severity.reaches, Severity.rank]

/-- Filtering what was captured is capturing what was filtered, unless critical notes are all that is
wanted and there are some. -/
theorem Note.filter_map_captured (notes : List Note) (threshold : Severity) :
    (notes.map Note.captured).filter (Note.reaches threshold) =
        (notes.filter (Note.reaches threshold)).map Note.captured ↔
      (threshold = .critical → ∀ note ∈ notes, note.severity ≠ .critical) := by
  by_cases hcritical : threshold = .critical
  · subst hcritical
    have hnone : (notes.map Note.captured).filter (Note.reaches .critical) = [] := by
      rw [List.filter_eq_nil_iff]
      intro note hmem
      obtain ⟨before, -, rfl⟩ := List.mem_map.1 hmem
      rw [before.reaches_critical_captured]
      exact Bool.false_ne_true
    rw [hnone, eq_comm, List.map_eq_nil_iff, List.filter_eq_nil_iff]
    simp only [Note.reaches_critical, true_implies]
  · have hsame : (notes.map Note.captured).filter (Note.reaches threshold) =
        (notes.filter (Note.reaches threshold)).map Note.captured := by
      rw [List.filter_map]
      congr 1
      apply List.filter_congr
      intro note _
      exact note.reaches_captured hcritical
    exact iff_of_true hsame fun hthreshold => absurd hthreshold hcritical

/-- Both routes of a logger record the same notes. Whatever calls are made, an ordinary thread leaves those
that reach the threshold between the texts of the session; and a real-time thread leaves those that reach
it as they were captured. These are the same notes, a critical one as an error, exactly if the threshold
is not `critical` or no call is. -/
theorem Launch.routes_log_alike {launch : Launch} {threshold : Severity}
    (hlevel : Severity.parse? launch.level = some threshold)
    (hclock : launch.host.clock.IsSpelled) {direct captured : Route}
    (hdirect : direct.IsMadeBy false) (hcaptured : captured.IsMadeBy true)
    (hcalls : captured.calls = direct.calls) (hdirectCalm : launch.IsCalm direct)
    (hcapturedCalm : launch.IsCalm captured) :
    let said := direct.calls.map LogCall.note
    let written := said.filter (Note.reaches threshold)
    let relayed := (said.map Note.captured).filter (Note.reaches threshold)
    launch.HasNoted threshold written (launch.finish direct).host.files ∧
      launch.HasNoted threshold relayed (launch.finish captured).host.files ∧
      (relayed = written.map Note.captured ↔
        (threshold = .critical → ∀ call ∈ direct.calls, call.severity ≠ .critical)) := by
  intro said written relayed
  refine ⟨launch.hasNoted hlevel hclock hdirect hdirectCalm, ?_, ?_⟩
  · have hnoted := launch.hasNoted hlevel hclock hcaptured hcapturedCalm
    have hsaid : (direct.calls.map fun call => call.note.onRoute true) = said.map Note.captured := by
      simp [said, Note.onRoute]
    rw [hcalls, hsaid] at hnoted
    exact hnoted
  · rw [Note.filter_map_captured]
    simp only [said, List.forall_mem_map]
    rfl

/-! ## Three calls -/

/-- A logger with a level to be started on a host whose clock stands still. -/
def Launch.plain (level : String) : Launch :=
  ⟨level, .text, .zero, .ofPath "app.log" "app", .initial (.steady 0 0) 1, Host.firstThread,
    Host.firstThread⟩

/-- A critical call, a pass, and two more calls. -/
def Route.threeCalls (probe : Probe) : Route :=
  ⟨probe, [.log Host.firstThread ⟨.critical, .ofText "boom"⟩, .drain,
    .log Host.firstThread ⟨.debug, .ofText "quiet"⟩, .flush,
    .log Host.firstThread ⟨.warning, .ofText "hot"⟩]⟩

theorem Route.isMadeBy_threeCalls (probe : Probe) :
    (Route.threeCalls probe).IsMadeBy (probe.ask Host.firstThread.flag) := by
  intro thread call hmem
  simp only [threeCalls, List.mem_cons, List.not_mem_nil, or_false, reduceCtorEq, false_or,
    Logger.Step.log.injEq] at hmem
  rcases hmem with ⟨rfl, -⟩ | ⟨rfl, -⟩ | ⟨rfl, -⟩ <;> rfl

theorem Launch.plain_isCalm (probe : Probe) : (Launch.plain "info").IsCalm (.threeCalls probe) := by
  refine ⟨?_, ?_, ?_, ?_, ?_⟩
  · cases probe <;> decide +kernel
  · cases probe <;> decide
  · intro call hmem
    have hcalls : (Route.threeCalls probe).calls = [⟨.critical, .ofText "boom"⟩,
      ⟨.debug, .ofText "quiet"⟩, ⟨.warning, .ofText "hot"⟩] := rfl
    rw [hcalls] at hmem
    simp only [List.mem_cons, List.not_mem_nil, or_false] at hmem
    rcases hmem with rfl | rfl | rfl <;> exact ⟨by decide +kernel, by decide +kernel⟩
  · have hall : ∀ front ∈ (Route.threeCalls probe).steps.inits,
        ((Launch.plain "info").run (.threeCalls probe) front).item.dropped = 0 := by
      cases probe <;> decide +kernel
    exact fun front hfront => hall front ((List.mem_inits _ _).2 hfront)
  · cases probe <;> decide +kernel

/-- At `info` both routes record two of three calls, the critical one under different names. -/
theorem Launch.info_routes_log_alike :
    let launch := Launch.plain "info"
    let left := fun probe => (launch.finish (.threeCalls probe)).host.files
    launch.HasNoted .info [⟨.critical, "boom"⟩, ⟨.warning, "hot"⟩] (left .never) ∧
      launch.HasNoted .info [⟨.error, "boom"⟩, ⟨.warning, "hot"⟩] (left .always) := by
  intro launch left
  have hlevel : Severity.parse? "info" = some .info := by decide +kernel
  obtain ⟨hdirect, hcaptured, -⟩ := @Launch.routes_log_alike launch .info hlevel
    Clock.isSpelled_still (.threeCalls .never) (.threeCalls .always)
    (Route.isMadeBy_threeCalls .never) (Route.isMadeBy_threeCalls .always) rfl
    (Launch.plain_isCalm .never) (Launch.plain_isCalm .always)
  exact ⟨hdirect, hcaptured⟩

/-- At `critical` a critical call of an ordinary thread is recorded, and that of a real-time thread is lost:
its log is empty, where it should hold the line of an error. -/
theorem Launch.critical_routes_differ :
    let launch := Launch.plain "critical"
    let route := fun probe =>
      (⟨probe, [.log Host.firstThread ⟨.critical, .ofText "boom"⟩]⟩ : Route)
    let left := fun probe => (launch.finish (route probe)).host.files.logFiles "app.log".toList 1
    left .never = [Utf8.bytes "[1970-01-01 00:00:00.000] [critical] boom\n"] ∧
      left .always = [[]] ∧
      left .always ≠ [Utf8.bytes "[1970-01-01 00:00:00.000] [error] boom\n"] ∧
      (launch.finish (route .always)).host.count Event.isFault = 0 := by
  decide +kernel

end LogRelay
