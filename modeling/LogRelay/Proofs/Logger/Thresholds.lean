import LogRelay.Proofs.Logger.Phases

/-!
# The thresholds of a logger

A logger keeps its threshold three times: as the name that was given, in the sink that writes its lines, and
in the capture that filters real-time threads. Only starting it and changing its level touch any of them.
While it runs they agree, unless the last name given since it was started is on no scale: then the capture is
left at `info`, and the other two stay as they are.
-/

namespace LogRelay

/-- Names of the severities. -/
def Severity.names : List String := all.map name

theorem Severity.parse?_eq_none_iff (text : String) :
    Severity.parse? text = none ↔ text.toLower ∉ Severity.names := by
  simp [parse?, names, List.find?_eq_none]

theorem Level.parseOrInfo_of_parse?_eq_none {text : String} (hnone : Severity.parse? text = none) :
    Level.parseOrInfo text = .info := by
  have hother : text.toLower ∉ Severity.names := (Severity.parse?_eq_none_iff text).1 hnone
  have hunknown : Level.parse? text = none := by
    rw [Level.parse?, List.find?_eq_none]
    intro level _ hname
    have hsame : level.name = text.toLower := of_decide_eq_true hname
    apply hother
    rw [← hsame]
    cases level <;> decide
  rw [Level.parseOrInfo, hunknown, Option.getD_none]

/-! ## Sessions -/

namespace Session

/-- The thresholds of a session: what its sink wants, and what its capture lets through. -/
def thresholds (session : Session) : Severity × Level :=
  (session.sink.threshold, session.capture.threshold)

theorem thresholds_putSink (state : Hosted Session) {changed : SinkState}
    (hthreshold : changed.sink.threshold = state.item.sink.threshold) :
    (putSink state changed).item.thresholds = state.item.thresholds :=
  congrArg (fun threshold => (threshold, state.item.capture.threshold)) hthreshold

theorem threshold_write (origin : Origin) (record : Record) (state : SinkState) :
    (state.write origin record).1.sink.threshold = state.sink.threshold := by
  have hcall : state.call (.write origin record) = (state.write origin record).1 := rfl
  rw [← hcall, SinkState.threshold_call]

theorem thresholds_conclude (state : Hosted Session) {written : SinkState × WriteResult}
    (hthreshold : written.1.sink.threshold = state.item.sink.threshold) :
    (conclude state written).1.item.thresholds = state.item.thresholds := by
  have hput := thresholds_putSink state hthreshold
  rw [conclude]
  cases written.2 <;> exact hput

theorem thresholds_write (thread : Nat) (severity : Severity) (payload : Payload)
    (state : Hosted Session) :
    (write thread severity payload state).1.item.thresholds = state.item.thresholds := by
  rw [write]
  split
  · split
    · rw [writeText]
      exact thresholds_conclude (tick state) (threshold_write _ _ _)
    · rfl
  · rfl

theorem thresholds_enqueue (level : Level) (payload : Payload) (state : Hosted Session) :
    (enqueue level payload state).1.item.thresholds = state.item.thresholds := by
  simp only [enqueue, thresholds, Capture.log]
  split <;> rfl

theorem threshold_receiver (closed : Bool) (origin : Origin) (message : Message messageSize)
    (state : SinkState) :
    (receiver closed origin message state).1.sink.threshold = state.sink.threshold := by
  rw [receiver]
  split
  · rfl
  · rw [Outlet.relay]
    by_cases hreaches :
        message.level.toSeverity.reaches ((Sink.outlet origin).threshold state) = true
    · simp only [if_pos hreaches]
      cases message.time? with
      | none => rfl
      | some time =>
          have hwrite := threshold_write origin ⟨message.level.toSeverity, message.text, time⟩ state
          simp only
          split <;> exact hwrite
    · simp only [if_neg hreaches]

theorem thresholds_drain (closed : Bool) (state : Hosted Session) :
    (drain closed state).item.thresholds = state.item.thresholds := by
  refine congrArg (fun threshold => (threshold, state.item.capture.threshold)) ?_
  change (state.item.capture.pass _ _ (sinkState state)).2.2.sink.threshold = _
  simp only [Capture.pass, Worker.pass]
  split
  · exact Flow.kept_drain (fun _ state => state.sink.threshold)
      (fun _ => threshold_receiver closed (drainOrigin state)) (fun _ _ => rfl)
      ⟨state.item.capture.queue, state.host.clock, sinkState state⟩
  · rfl

theorem thresholds_flush (state : Hosted Session) :
    (flush state).1.item.thresholds = state.item.thresholds :=
  thresholds_putSink state ((sinkState state).threshold_call .flush)

theorem thresholds_periodicFlush (state : Hosted Session) :
    (periodicFlush state).item.thresholds = state.item.thresholds := by
  rw [periodicFlush]
  cases state.item.flusher with
  | none => rfl
  | some flusher =>
      refine congrArg (fun threshold => (threshold, state.item.capture.threshold)) ?_
      change (flusher.pass flushJob (sinkState state)).2.sink.threshold = _
      simp only [Worker.pass, flushJob_eq_tell]
      split
      · exact SinkState.threshold_tell _ _ _
      · rfl

theorem thresholds_finish (thread : Thread) (format : LogFormat) (state : Hosted Session) :
    (Logger.finish thread format state).item.thresholds = state.item.thresholds := by
  simp only [Logger.finish]
  cases Logger.farewell? format with
  | none => cases (flush state).2 <;> exact thresholds_flush state
  | some text =>
      simp only
      rw [← thresholds_write thread.number .info (Payload.ofText text) state]
      cases (flush (write thread.number .info (Payload.ofText text) state).1).2 <;>
        exact thresholds_flush _

theorem thresholds_start (period : Duration) (threshold : Severity) (options : SinkOptions)
    (claim : Claim) (state : Hosted Sink) :
    (start period threshold options claim state).item.thresholds =
      (threshold, threshold.toLevel) := by
  have hcapture : (Level.parseOrInfo threshold.toLevel.name) = threshold.toLevel :=
    Level.parseOrInfo_name _
  rw [start]
  simp only
  split <;> exact congrArg (Prod.mk threshold) hcapture

end Session

namespace Logger

/-! ## Steps -/

/-- The name that an act gives for the threshold. -/
def Act.levelText? : Act → Option String
  | .step (.setLevel text) => some text
  | _ => none

/-- The last name given for the threshold since a start was last tried. -/
def latestName? (acts : List Act) : Option String :=
  (acts.reverse.takeWhile fun act => !act.isStart).findSome? Act.levelText?

theorem latestName?_concat (acts : List Act) (act : Act) :
    latestName? (acts ++ [act]) =
      if act.isStart then none else act.levelText?.orElse fun _ => latestName? acts := by
  rw [latestName?, List.reverse_append, List.reverse_singleton, List.singleton_append,
    List.takeWhile_cons]
  cases act.isStart with
  | true => rfl
  | false =>
      simp only [Bool.not_false, if_true, List.findSome?_cons, Bool.false_eq_true, if_false]
      cases act.levelText? <;> rfl

/-- The level at which a capture is left: that of the threshold, or `info` by a name on no scale. -/
def captureLevel (threshold : Severity) : Option String → Level
  | none => threshold.toLevel
  | some text => if Severity.parse? text = none then .info else threshold.toLevel

/-- While a logger runs its threshold is valid, its sink has it, and its capture is where the last name since
the start has left it. -/
def Attuned (latest? : Option String) (logger : Logger) : Prop :=
  ∀ session, logger.session = some session → ∃ threshold,
    Severity.parse? logger.level = some threshold ∧
      session.thresholds = (threshold, captureLevel threshold latest?)

variable {latest? : Option String} {state : Hosted Logger}

theorem attuned_of_none {logger : Logger} (hnone : logger.session = none) : Attuned latest? logger :=
  fun session hsession => absurd (hnone.symm.trans hsession) (Option.some_ne_none session).symm

theorem Attuned.congr (hattuned : Attuned latest? state.item) {next : Logger} {before after : Session}
    (hbefore : state.item.session = some before) (hafter : next.session = some after)
    (hlevel : next.level = state.item.level) (hthresholds : after.thresholds = before.thresholds) :
    Attuned latest? next := by
  intro session hsession
  obtain rfl : after = session := Option.some.inj (hafter.symm.trans hsession)
  rw [hlevel, hthresholds]
  exact hattuned before hbefore

/-- A step that gives no name keeps the thresholds in agreement. -/
theorem Attuned.step (hattuned : Attuned latest? state.item) {step : Step}
    (hsilent : Act.levelText? (.step step) = none) :
    Attuned latest? (Logger.step step state).item := by
  cases hsession : state.item.session with
  | none =>
      obtain ⟨level, events, hstep⟩ := step_of_none hsession step
      rw [hstep]
      exact attuned_of_none hsession
  | some session =>
      cases step with
      | setLevel text => exact absurd hsilent (Option.some_ne_none text)
      | log thread call =>
          simp only [Logger.step, log, hsession]
          split
          · exact hattuned
          · split
            · exact hattuned.congr hsession rfl rfl (Session.thresholds_enqueue _ _ ⟨session, state.host⟩)
            · exact hattuned.congr hsession rfl rfl (Session.thresholds_write _ _ _ ⟨session, state.host⟩)
      | drain =>
          simp only [Logger.step, drain, hsession]
          exact hattuned.congr hsession rfl rfl (Session.thresholds_drain _ ⟨session, state.host⟩)
      | flush =>
          simp only [Logger.step, periodicFlush, hsession]
          exact hattuned.congr hsession rfl rfl (Session.thresholds_periodicFlush ⟨session, state.host⟩)
      | close thread =>
          simp only [Logger.step, close, hsession]
          split
          · exact hattuned
          · exact hattuned.congr hsession rfl rfl
              (Session.thresholds_finish thread _ ⟨session, state.host⟩)

/-- A valid name moves all three thresholds; any other one only that of the capture. -/
theorem Attuned.setLevel (hattuned : Attuned latest? state.item) (text : String) :
    Attuned (some text) (setLevel text state).1.item := by
  rw [Logger.setLevel]
  cases hparse : Severity.parse? text with
  | none =>
      intro session hsession
      obtain ⟨before, hbefore, rfl⟩ := Option.map_eq_some_iff.1 hsession
      obtain ⟨threshold, hlevel, hthresholds⟩ := hattuned before hbefore
      have hsink : before.sink.threshold = threshold := congrArg Prod.fst hthresholds
      have hcapture : Level.parseOrInfo text = captureLevel threshold (some text) := by
        rw [captureLevel, if_pos hparse, Level.parseOrInfo_of_parse?_eq_none hparse]
      exact ⟨threshold, hlevel, Prod.ext hsink hcapture⟩
  | some threshold =>
      intro session hsession
      obtain ⟨before, -, rfl⟩ := Option.map_eq_some_iff.1 hsession
      have hcapture : Level.parseOrInfo threshold.toLevel.name =
          captureLevel threshold (some text) := by
        rw [Level.parseOrInfo_name, captureLevel, if_neg (by simp [hparse])]
      exact ⟨threshold, hparse, congrArg (Prod.mk threshold) hcapture⟩

/-- A logger that starts has its threshold from the level it was given. -/
theorem attuned_start (thread : Thread) (options : SinkOptions) (state : Hosted Logger) :
    Attuned none (start thread options state).1.item := by
  cases hstart : (start thread options state).2 with
  | error error =>
      have hnone : (start thread options state).1.item.session = none := by
        rw [(fails_of_error hstart).item_eq]
        exact session_shutdown thread state
      exact attuned_of_none hnone
  | ok =>
      obtain ⟨threshold, claim, files, sink, hstarts⟩ := starts_of_ok hstart
      let idle := (shutdown thread state).item
      let started := Session.start idle.period threshold options claim
        ⟨sink, openedHost thread options state files⟩
      have hgreeted := Session.thresholds_write thread.number .info
        (Payload.ofText (greeting idle.format options.name)) started
      rw [hstarts.start_eq]
      intro session hsession
      obtain rfl := Option.some.inj hsession
      exact ⟨threshold, hstarts.parse_eq,
        hgreeted.trans (Session.thresholds_start _ threshold options claim _)⟩

/-! ## Runs -/

theorem Attuned.act {acts : List Act} (hattuned : Attuned (latestName? acts) state.item) (act : Act) :
    Attuned (latestName? (acts ++ [act])) (act.apply state).item := by
  rw [latestName?_concat]
  cases act with
  | start thread options => exact attuned_start thread options state
  | shutdown thread => exact attuned_of_none (session_shutdown thread state)
  | step step =>
      cases step with
      | setLevel text => exact hattuned.setLevel text
      | _ => exact hattuned.step rfl

theorem attuned_perform {unused : Hosted Logger} (hnone : unused.item.session = none)
    (acts : List Act) : Attuned (latestName? acts) (perform acts unused).item := by
  induction acts using List.reverseRecOn with
  | nil => exact attuned_of_none hnone
  | append_singleton before act induction =>
      rw [perform_append]
      exact induction.act act

/-- The thresholds of a logger agree after whatever has been done with it. While it runs, the name it keeps is
valid, its sink has the severity of that name, and its capture has the level of that severity, unless the
last name given since the start is on no scale, which leaves the capture at `info`. Changing the level fails
exactly for a name on no scale, and then the name that is kept and the threshold of the sink stay. -/
theorem thresholds_agree (level : String) (format : LogFormat) (period : Duration) (probe : Probe)
    (host : Host) (acts : List Act) :
    let last := perform acts ⟨.idle level format period probe, host⟩
    (∀ session, last.item.session = some session → ∃ threshold,
      Severity.parse? last.item.level = some threshold ∧ session.sink.threshold = threshold ∧
        session.capture.threshold =
          if ∃ text ∈ latestName? acts, text.toLower ∉ Severity.names then .info
          else threshold.toLevel) ∧
    ∀ text, ((setLevel text last).2 = .ok () ↔ text.toLower ∈ Severity.names) ∧
      (text.toLower ∉ Severity.names → (setLevel text last).2 = .error (.invalidLevel text) ∧
        (setLevel text last).1.item.level = last.item.level ∧
        (setLevel text last).1.item.threshold? = last.item.threshold?) := by
  intro last
  constructor
  · intro session hsession
    obtain ⟨threshold, hlevel, hthresholds⟩ := @attuned_perform
      ⟨.idle level format period probe, host⟩ rfl acts session hsession
    obtain ⟨hsink, hcapture⟩ := Prod.mk.inj hthresholds
    refine ⟨threshold, hlevel, hsink, hcapture.trans ?_⟩
    simp only [← Severity.parse?_eq_none_iff]
    cases latestName? acts <;> simp [captureLevel]
  · intro text
    have hnone := Severity.parse?_eq_none_iff text
    rw [setLevel]
    cases hparse : Severity.parse? text with
    | none =>
        have hother : text.toLower ∉ Severity.names := hnone.1 hparse
        refine ⟨iff_of_false (by simp) hother, fun _ => ⟨rfl, rfl, ?_⟩⟩
        rw [threshold?, threshold?]
        exact Option.map_map _ _ _
    | some threshold =>
        have hname : text.toLower ∈ Severity.names := by
          by_contra hother
          exact absurd (hparse.symm.trans (hnone.2 hother)) (Option.some_ne_none threshold)
        exact ⟨iff_of_true rfl hname, fun hother => absurd hname hother⟩

/-- A logger that starts at one level, is set to another and is then given a name on no scale. -/
def misnamed : List Act :=
  [.start Host.firstThread (.ofPath "app.log" "app"), .step (.setLevel "Critical"),
    .step (.setLevel "loud")]

/-- The name on no scale leaves the level and the sink at `critical`, but the capture at `info`. -/
theorem misnamed_level_leaves_info :
    let last := perform misnamed ⟨.idle "WARNING" .text .zero .threadFlag, .initial (.steady 0 0) 1⟩
    ∃ session, last.item.session = some session ∧ last.item.level = "Critical" ∧
      session.sink.threshold = .critical ∧ session.capture.threshold = .info ∧
      (setLevel "quiet" last).2 = .error (.invalidLevel "quiet") := by
  intro last
  obtain ⟨hagree, hchange⟩ := thresholds_agree "WARNING" .text .zero .threadFlag
    (.initial (.steady 0 0) 1) misnamed
  have hruns : last.item.session.isSome = true := by decide +kernel
  have hlevel : last.item.level = "Critical" := by decide +kernel
  have hparse : Severity.parse? "Critical" = some .critical := by decide +kernel
  have hlatest : latestName? misnamed = some "loud" := rfl
  obtain ⟨session, hsession⟩ := Option.isSome_iff_exists.1 hruns
  obtain ⟨threshold, hname, hsink, hcapture⟩ := hagree session hsession
  obtain rfl : threshold = .critical := by
    rw [hlevel, hparse] at hname
    exact (Option.some.inj hname).symm
  rw [hlatest, if_pos ⟨"loud", rfl, by decide +kernel⟩] at hcapture
  exact ⟨session, hsession, hlevel, hsink, hcapture, ((hchange "quiet").2 (by decide +kernel)).1⟩

end Logger

end LogRelay
