import LogRelay.Proofs.Logger.Handed
import LogRelay.Proofs.Registry.Holders
import Mathlib.Data.List.Infix

/-!
# What a logger leaves that is shut down

A logger that is shut down has logged every message that it took. Calls of ordinary threads are written in
their order; calls of real-time threads that the capture lets through are written in their order too, each
with the time at which it was captured, unless the queue refused them; and the reports count those that it
refused. The farewell comes last, and the name is free.
-/

namespace LogRelay

namespace Logger

/-- The message of a step writes itself to its end. -/
def Step.Renders (step : Step) : Prop := ∀ call ∈ step.call?, call.payload.text?.isSome = true

variable {probe : Probe} {format : LogFormat} {footing : Session.Footing} {journal : Journal}
  {state : Hosted Logger}

/-! ## Plain runs -/

variable {threshold : Severity} {opening body : List Line} {taken : List View} {said : List Posting}

theorem Keeps.conveys_step (hkeeps : Keeps probe format footing journal state)
    (hconveys : journal.Conveys threshold opening body taken said)
    (hcritical : threshold ≠ .critical) {step : Step} (hplain : step.isPlain = true) :
    (journal.step probe format step).Conveys threshold opening (body ++ hands step state)
      (taken ++ (accepts? step state).toList) (said ++ (writes? step state).toList) := by
  cases step with
  | setLevel text => exact absurd hplain Bool.false_ne_true
  | close thread => exact absurd hplain Bool.false_ne_true
  | flush =>
      have hnone : accepts? .flush state = none ∧ writes? .flush state = none := ⟨rfl, rfl⟩
      rw [hnone.1, hnone.2, hands, Option.toList_none, Option.toList_none, List.append_nil,
        List.append_nil, List.append_nil]
      exact hconveys
  | drain =>
      have hnone : accepts? .drain state = none ∧ writes? .drain state = none := ⟨rfl, rfl⟩
      rw [hnone.1, hnone.2, hands, hkeeps.relays_eq, Option.toList_none, Option.toList_none,
        List.append_nil, List.append_nil]
      exact hconveys.pass hcritical
  | log thread call =>
      have hopen : ¬journal.closed = true := by simp [hconveys.closed_eq]
      rw [hands, hkeeps.accepts?_eq hconveys.closed_eq, hkeeps.writes?_eq, hconveys.closed_eq,
        Bool.false_or, Journal.step, if_neg hopen]
      cases probe.ask thread.flag with
      | false =>
          simp only [Bool.false_eq_true, if_false, Option.toList_none, List.append_nil]
          exact (hconveys.write thread.number call).1
      | true =>
          simp only [if_true, Option.map_none, Option.toList_none, List.append_nil]
          exact hconveys.capture call.severity.toLevel call.payload

theorem Keeps.conveys_run (hkeeps : Keeps probe format footing journal state)
    (hconveys : journal.Conveys threshold opening body taken said) (hcritical : threshold ≠ .critical)
    {steps : List Step} (hplain : ∀ step ∈ steps, step.isPlain = true) :
    (journal.run probe format steps).Conveys threshold opening (body ++ handed steps state)
      (taken ++ accepted steps state) (said ++ written steps state) := by
  induction steps generalizing state journal body taken said with
  | nil => simpa [handed, accepted, written, along, Journal.run] using hconveys
  | cons step rest induction =>
      have hrest := induction (hkeeps.step step)
        (hkeeps.conveys_step hconveys hcritical (hplain step List.mem_cons_self))
        fun other hmem => hplain other (List.mem_cons_of_mem _ hmem)
      rwa [List.append_assoc, List.append_assoc, List.append_assoc] at hrest

theorem deliveries_hands {step : Step} (hother : step ≠ .drain) (state : Hosted Logger) :
    (hands step state).filterMap Line.delivery? = [] := by
  cases step with
  | drain => exact absurd rfl hother
  | log thread call =>
      rw [hands]
      cases writes? (.log thread call) state <;> rfl
  | _ => rfl

theorem deliveries_handed {steps : List Step} (hnone : .drain ∉ steps) (state : Hosted Logger) :
    (handed steps state).filterMap Line.delivery? = [] := by
  induction steps generalizing state with
  | nil => rfl
  | cons step rest induction =>
      rw [handed, along, List.filterMap_append,
        deliveries_hands fun hdrain => hnone (hdrain ▸ List.mem_cons_self)]
      exact induction (fun hmem => hnone (List.mem_cons_of_mem _ hmem)) (Logger.step step state)

/-! ## Refused calls -/

theorem Keeps.refused_step (hkeeps : Keeps probe format footing journal state)
    (hopen : journal.closed = false) {step : Step} (hplain : step.isPlain = true)
    (hother : step ≠ .drain) :
    (journal.step probe format step).backlog.refused =
      journal.backlog.refused + EnabledCall.refusals (captures? step state).toList := by
  cases step with
  | setLevel text => exact absurd hplain Bool.false_ne_true
  | close thread => exact absurd hplain Bool.false_ne_true
  | flush => rfl
  | drain => exact absurd rfl hother
  | log thread call =>
      rw [hkeeps.captures?_eq hopen, Journal.step, if_neg (by simp [hopen])]
      cases probe.ask thread.flag with
      | false => rfl
      | true =>
          by_cases hpasses : call.severity.toLevel.passes journal.backlog.level = true
          · by_cases hfull : journal.backlog.waiting.length = Session.slotCount
            · simp [Journal.capture, Backlog.log, hpasses, hfull, EnabledCall.refusals]
            · have hlog : (journal.capture call.severity.toLevel call.payload).backlog.refused =
                  journal.backlog.refused := by
                rw [Journal.capture, Backlog.log, if_pos hpasses, if_neg hfull]
                split <;> rfl
              simp [hlog, hpasses, hfull, EnabledCall.refusals]
          · simp [Journal.capture, Backlog.log, hpasses, EnabledCall.refusals]

/-- The queue counts every call that it refuses until the next pass. -/
theorem Keeps.refused_run (hkeeps : Keeps probe format footing journal state)
    (hopen : journal.closed = false) {steps : List Step}
    (hplain : ∀ step ∈ steps, step.isPlain = true) (hnone : .drain ∉ steps) :
    (journal.run probe format steps).backlog.refused =
      journal.backlog.refused + refusals steps state := by
  induction steps generalizing state journal with
  | nil => rfl
  | cons step rest induction =>
      have hstep := hplain step List.mem_cons_self
      have hfirst := hkeeps.refused_step hopen hstep fun hdrain => hnone (hdrain ▸ List.mem_cons_self)
      have hstill := Journal.closed_step_of_isPlain probe format hstep journal
      have hrest := induction (hkeeps.step step) (hstill.trans hopen)
        (fun other hmem => hplain other (List.mem_cons_of_mem _ hmem))
        fun hmem => hnone (List.mem_cons_of_mem _ hmem)
      have hsplit : refusals (step :: rest) state =
          EnabledCall.refusals (captures? step state).toList +
            refusals rest (Logger.step step state) := EnabledCall.refusals_append _ _
      rw [hsplit, ← Nat.add_assoc, ← hfirst]
      exact hrest

theorem rested_untilLastPass (hwaiting : journal.backlog.waiting = [])
    (hrefused : journal.backlog.refused = 0) (steps : List Step) :
    (journal.run probe format (untilLastPass steps)).backlog.waiting = [] ∧
      (journal.run probe format (untilLastPass steps)).backlog.refused = 0 := by
  obtain ⟨-, -, -, hnone | ⟨front, hends⟩⟩ := exists_untilLastPass steps
  · rw [hnone]
    exact ⟨hwaiting, hrefused⟩
  · rw [hends, Journal.run_concat]
    exact ⟨rfl, rfl⟩

/-- A pass reports the calls refused since the last one. -/
theorem Keeps.sum_counts_pass (hkeeps : Keeps probe format footing journal state)
    (hconveys : journal.Conveys threshold opening [] [] []) (hrefused : journal.backlog.refused = 0)
    (hwarning : Severity.warning.reaches threshold = true) {steps : List Step}
    (hplain : ∀ step ∈ steps, step.isPlain = true)
    (hfew : ∀ front middle, front ++ middle <+: steps → .drain ∉ middle →
      refusals middle (Logger.run front state) < 2 ^ 32)
    (hsum : (((handed steps state).filterMap Line.delivery?).map Delivery.count).sum =
      refusals (untilLastPass steps) state) :
    (((handed (steps ++ [.drain]) state).filterMap Line.delivery?).map Delivery.count).sum =
      refusals steps state := by
  obtain ⟨since, hsplit, hsince, -⟩ := exists_untilLastPass steps
  have hfront : ∀ step ∈ untilLastPass steps, step.isPlain = true :=
    fun step hmem => hplain step (hsplit ▸ List.mem_append_left _ hmem)
  have hback : ∀ step ∈ since, step.isPlain = true :=
    fun step hmem => hplain step (hsplit ▸ List.mem_append_right _ hmem)
  have hnone := @rested_untilLastPass probe format journal hconveys.taken_eq.symm hrefused steps
  have hopen := (Journal.closed_run_of_isPlain probe format hfront journal).trans hconveys.closed_eq
  have hcount := (hkeeps.run (untilLastPass steps)).refused_run hopen hback hsince
  rw [← Journal.run_append, ← hsplit, hnone.2, Nat.zero_add] at hcount
  have hcalls := hkeeps.conveys_run hconveys (Severity.ne_critical_of_warning_reaches hwarning) hplain
  have htotal := refusals_append (untilLastPass steps) since state
  rw [← hsplit] at htotal
  rw [handed, along_concat, List.filterMap_append, List.map_append, List.sum_append, hands,
    (hkeeps.run steps).relays_eq, hcalls.sum_counts_dueLines hwarning, Backlog.counted, hcount,
    Nat.mod_eq_of_lt (hfew _ since (hsplit ▸ List.prefix_rfl) hsince), htotal, ← hsum]
  rfl

/-- The reports of a run add up to the calls refused up to its last pass, unless too many are refused between
two passes. -/
theorem Keeps.sum_counts_handed (hkeeps : Keeps probe format footing journal state)
    (hconveys : journal.Conveys threshold opening [] [] []) (hrefused : journal.backlog.refused = 0)
    (hwarning : Severity.warning.reaches threshold = true) {steps : List Step}
    (hplain : ∀ step ∈ steps, step.isPlain = true)
    (hfew : ∀ front middle, front ++ middle <+: steps → .drain ∉ middle →
      refusals middle (Logger.run front state) < 2 ^ 32) :
    (((handed steps state).filterMap Line.delivery?).map Delivery.count).sum =
      refusals (untilLastPass steps) state := by
  induction steps using List.reverseRecOn with
  | nil => rfl
  | append_singleton before step induction =>
      have hplainBefore : ∀ other ∈ before, other.isPlain = true :=
        fun other hother => hplain other (List.mem_append_left _ hother)
      have hfewBefore : ∀ front middle, front ++ middle <+: before → .drain ∉ middle →
          refusals middle (Logger.run front state) < 2 ^ 32 :=
        fun front middle hpart => hfew front middle (hpart.trans (List.prefix_append before [step]))
      have hsum := induction hplainBefore hfewBefore
      rw [untilLastPass_concat]
      by_cases hdrain : step = .drain
      · rw [if_pos hdrain, hdrain, refusals_append]
        exact hkeeps.sum_counts_pass hconveys hrefused hwarning hplainBefore hfewBefore hsum
      · rw [if_neg hdrain, handed, along_concat, List.filterMap_append, deliveries_hands hdrain,
          List.append_nil]
        exact hsum

/-- The queue takes a call that writes itself to its end, unless it refuses it. -/
theorem Keeps.accepts?_of_renders (hkeeps : Keeps probe format footing journal state)
    (hopen : journal.closed = false) {step : Step} (hrender : step.Renders) :
    (accepts? step state).toList = EnabledCall.accepted (captures? step state).toList := by
  cases step with
  | log thread call =>
      obtain ⟨text, htext⟩ := Option.isSome_iff_exists.1 (hrender call rfl)
      have hending : ¬(call.payload.fill (Session.messageSize - 1)).ending = .brokeDown :=
        Payload.ending_fill_ne_brokeDown (Payload.text?_eq_some.1 htext).1
      rw [hkeeps.accepts?_eq hopen, hkeeps.captures?_eq hopen, Backlog.taken?]
      cases probe.ask thread.flag with
      | false => rfl
      | true =>
          by_cases hpasses : call.severity.toLevel.passes journal.backlog.level = true
          · by_cases hfull : journal.backlog.waiting.length = Session.slotCount
            · simp [hpasses, hfull, EnabledCall.accepted]
            · have htaken := And.intro hpasses (And.intro hfull hending)
              rw [if_pos htaken]
              simp [hpasses, hfull, EnabledCall.accepted]
          · simp [hpasses, EnabledCall.accepted]
  | _ => rfl

theorem Keeps.accepted_of_renders (hkeeps : Keeps probe format footing journal state)
    (hopen : journal.closed = false) {steps : List Step}
    (hplain : ∀ step ∈ steps, step.isPlain = true) (hrender : ∀ step ∈ steps, step.Renders) :
    accepted steps state = EnabledCall.accepted (captured steps state) := by
  induction steps generalizing state journal with
  | nil => rfl
  | cons step rest induction =>
      have hstep := hkeeps.accepts?_of_renders hopen (hrender step List.mem_cons_self)
      have hstill :=
        Journal.closed_step_of_isPlain probe format (hplain step List.mem_cons_self) journal
      have hrest := induction (hkeeps.step step) (hstill.trans hopen)
        (fun other hmem => hplain other (List.mem_cons_of_mem _ hmem))
        fun other hmem => hrender other (List.mem_cons_of_mem _ hmem)
      have hsplit : EnabledCall.accepted (captured (step :: rest) state) =
          EnabledCall.accepted (captures? step state).toList ++
            EnabledCall.accepted (captured rest (Logger.step step state)) :=
        EnabledCall.accepted_append _ _
      rw [hsplit, ← hstep, ← hrest]
      rfl

theorem refusals_le (steps : List Step) (state : Hosted Logger) :
    refusals steps state ≤ steps.length := by
  have hlength : (captured steps state).length ≤ steps.length := by
    rw [captured]
    induction steps generalizing state with
    | nil => exact Nat.le_refl _
    | cons step rest induction =>
        have hrest := induction (Logger.step step state)
        have hfirst : (captures? step state).toList.length ≤ 1 := by
          cases captures? step state <;> simp
        rw [along, List.length_append, List.length_cons]
        omega
  exact Nat.le_trans List.countP_le_length hlength

theorem conveys_openedJournal (starter : Thread) (options : SinkOptions) (before : Hosted Logger)
    (threshold : Severity) :
    (openedJournal starter options before threshold).Conveys threshold
      (openedJournal starter options before threshold).lines [] [] [] :=
  ⟨rfl, rfl, rfl, fun _ hmem => absurd hmem List.not_mem_nil, (List.append_nil _).symm,
    fun _ hmem => absurd hmem List.not_mem_nil, rfl, rfl⟩

/-- A session has left its first text, some messages and its farewell. The messages relay some calls and say
some postings. -/
def LogsCalls (options : SinkOptions) (starter closer : Thread) (threshold : Severity)
    (body : List Line) (calls : List View) (said : List Posting) (idle left : Hosted Logger) : Prop :=
  (∃ time, options.HasLogged idle.item.format
    ((Journal.textLines .greeting threshold ⟨idle.host.process, starter.number⟩
        (greeting idle.item.format options.name) idle.host.clock.now ++ body ++
      Journal.farewellLines idle.item.format threshold ⟨idle.host.process, closer.number⟩ time).map
        Line.posting) idle.host.files left.host.files) ∧
    (∀ line ∈ body, line.isMessage = true) ∧ Line.relayedCalls body = calls ∧
    body.filterMap Line.call? = said

/-- Shutting down is a last pass, which relays what waits. -/
theorem logsCalls_shutdown {starter closer : Thread} {options : SinkOptions} {before : Hosted Logger}
    {steps : List Step} (hlevel : Severity.parse? before.item.level = some threshold)
    (hcritical : threshold ≠ .critical) (hclock : before.host.clock.IsSpelled)
    (hstart : (start starter options before).2 = .ok ())
    (hplain : ∀ step ∈ steps, step.isPlain = true)
    (hfaults : (shutdown closer (run steps (start starter options before).1)).host.count
      Event.isFault = (shutdown starter before).host.count Event.isFault) :
    let started := (start starter options before).1
    LogsCalls options starter closer threshold (handed (steps ++ [.drain]) started)
      (accepted steps started) (written steps started) (shutdown starter before)
      (shutdown closer (run steps started)) := by
  intro started
  obtain ⟨claim, files, sink, hstarts⟩ := starts_of_parse hlevel hstart
  have hkeeps := keeps_start hstarts hclock
  let idle := shutdown starter before
  let journal := openedJournal starter options before threshold
  let last := journal.run idle.item.probe idle.item.format steps
  have hopened : (openedHost starter options before files).count Event.isFault =
      idle.host.count Event.isFault := count_openedHost fun _ hfault => hfault
  have hlogged := (hkeeps.run steps).hasLogged closer hstarts.open_eq (hfaults.trans hopened.symm)
  have hbody := hkeeps.conveys_run (conveys_openedJournal starter options before threshold) hcritical
    hplain
  have hpass := (hkeeps.run steps).conveys_step hbody hcritical (rfl : Step.drain.isPlain = true)
  have hhanded : handed (steps ++ [.drain]) started = handed steps started ++ hands .drain
      (run steps started) := along_concat _ _ _ _
  have hprocess : last.process = idle.host.process := journal.process_run _ _ steps
  have hlines : last.pass.lines = _ := hpass.lines_eq
  rw [Journal.lines_finish_of_open hbody.closed_eq, hlines, lines_openedJournal, hbody.threshold_eq,
    hprocess] at hlogged
  rw [hhanded]
  exact ⟨⟨_, hlogged⟩, hpass.isMessage, (hpass.taken_eq.trans (List.append_nil _)).symm.trans
    (List.append_nil _), hpass.said_eq.trans (List.append_nil _)⟩

/-- A logger that is shut down has logged what it took. Whatever is logged and whenever passes are made, the
lines behind the first text are messages and the farewell comes last. The captured ones are the calls of
real-time threads that were let through and not refused, each once and in its turn, with its own time; the
reports add up to the refused calls; the others are the calls of ordinary threads in their order. The name
is free afterwards. -/
theorem shutdown_logs_accepted {starter closer : Thread} {options : SinkOptions}
    {before : Hosted Logger} {steps : List Step}
    (hlevel : Severity.parse? before.item.level = some threshold)
    (hwarning : Severity.warning.reaches threshold = true) (hclock : before.host.clock.IsSpelled)
    (hstart : (start starter options before).2 = .ok ())
    (hplain : ∀ step ∈ steps, step.isPlain = true) (hrender : ∀ step ∈ steps, step.Renders)
    (hfew : ∀ front middle, front ++ middle <+: steps → .drain ∉ middle →
      refusals middle (run front (start starter options before).1) < 2 ^ 32)
    (hfaults : (shutdown closer (run steps (start starter options before).1)).host.count
      Event.isFault = (shutdown starter before).host.count Event.isFault) :
    let idle := shutdown starter before
    let started := (start starter options before).1
    let left := shutdown closer (run steps started)
    let opening := Journal.textLines .greeting threshold ⟨idle.host.process, starter.number⟩
      (greeting idle.item.format options.name) idle.host.clock.now
    ∃ body time,
      options.HasLogged idle.item.format
        ((opening ++ body ++ Journal.farewellLines idle.item.format threshold
          ⟨idle.host.process, closer.number⟩ time).map Line.posting) idle.host.files left.host.files ∧
      (∀ line ∈ body, line.isMessage = true) ∧
      (body.filterMap Line.delivery?).filterMap Delivery.call? =
        EnabledCall.accepted (captured steps started) ∧
      ((body.filterMap Line.delivery?).map Delivery.count).sum = refusals steps started ∧
      body.filterMap Line.call? = written steps started ∧
      left.item.isRunning = false ∧ left.host.registry.isHeld options.name = false := by
  intro idle started left opening
  obtain ⟨claim, files, sink, hstarts⟩ := starts_of_parse hlevel hstart
  have hkeeps := keeps_start hstarts hclock
  have hconveys := conveys_openedJournal starter options before threshold
  obtain ⟨⟨time, hlogged⟩, hmessages, hcalls, hsaid⟩ := logsCalls_shutdown hlevel
    (Severity.ne_critical_of_warning_reaches hwarning) hclock hstart hplain hfaults
  have hsum := hkeeps.sum_counts_pass hconveys rfl hwarning hplain hfew
    (hkeeps.sum_counts_handed hconveys rfl hwarning hplain hfew)
  have haccepted := hkeeps.accepted_of_renders rfl hplain hrender
  refine ⟨_, time, hlogged, hmessages, hcalls.trans haccepted, hsum, hsaid, ?_, ?_⟩
  · obtain ⟨_, -, hshutdown⟩ := (hkeeps.run steps).shutdown closer
    change (shutdown closer (run steps started)).item.isRunning = false
    rw [hshutdown]
    rfl
  · change (shutdown closer (run steps started)).host.registry.isHeld options.name = false
    rw [(hkeeps.run steps).registry_shutdown closer]
    exact Registry.isHeld_drop_of_claim hstarts.claim_eq

/-! ## A run of both kinds of threads -/

/-- A clock that goes on by a millisecond at every reading and starts anew after ten of them. -/
def turningClock : Clock := ⟨fun count => .ofMillis (count % 10), 0⟩

theorem isSpelled_turningClock : turningClock.IsSpelled := by
  have hall : ∀ millis < 10, Instant.ofDuration? (.ofMillis millis) =
      some (.ofDuration (.ofMillis millis)) ∧
        (Instant.ofDuration (.ofMillis millis)).civil.InRange := by decide +kernel
  exact fun count => hall (count % 10) (Nat.mod_lt _ (by decide))

/-- A JSON logger that is not started. -/
def beforeMixedRun : Hosted Logger :=
  ⟨.idle "info" .json .zero .threadFlag, .initial turningClock 1⟩

/-- Two calls of a real-time thread around a pass, one that it makes below the threshold, and one call of an
ordinary thread. -/
def mixedRun : List Step :=
  let realtime : Thread := ⟨2, ⟨true⟩⟩
  [.log realtime ⟨.warning, .ofText "first"⟩, .log Host.firstThread ⟨.error, .ofText "direct"⟩, .drain,
    .log realtime ⟨.debug, .ofText "quiet"⟩, .flush, .log realtime ⟨.info, .ofText "last"⟩]

theorem renders_mixedRun : ∀ step ∈ mixedRun, step.Renders := by
  have hcalls : ∀ call ∈ mixedRun.filterMap Step.call?, call.payload.text?.isSome = true := by
    decide +kernel
  exact fun step hmem call hcall => hcalls call (List.mem_filterMap.2 ⟨step, hmem, hcall⟩)

/-- Both captured calls are logged with the times at which they were captured. -/
theorem mixedRun_logs_accepted :
    let options := SinkOptions.ofPath "app.log" "app"
    let left := shutdown Host.firstThread
      (run mixedRun (start Host.firstThread options beforeMixedRun).1)
    let farewell := fun time => Journal.farewellLines .json .info ⟨1, 1⟩ time
    ∃ body time,
      options.HasLogged .json
        (([Line.greeting ⟨⟨1, 1⟩, ⟨.info, greeting .json "app", .ofDuration (.ofMillis 0)⟩⟩] ++ body ++
          farewell time).map Line.posting) .initial left.host.files ∧
      (body.filterMap Line.delivery?).filterMap Delivery.call? =
        [⟨.warning, .ofMillis 1, "first"⟩, ⟨.info, .ofMillis 3, "last"⟩] ∧
      body.filterMap Line.call? = [⟨⟨1, 1⟩, ⟨.error, "direct", .ofDuration (.ofMillis 2)⟩⟩] ∧
      left.host.registry.isHeld "app" = false := by
  intro options left farewell
  have hlevel : Severity.parse? beforeMixedRun.item.level = some .info := by decide +kernel
  have hcaptured : EnabledCall.accepted
      (captured mixedRun (start Host.firstThread options beforeMixedRun).1) =
        [⟨.warning, .ofMillis 1, "first"⟩, ⟨.info, .ofMillis 3, "last"⟩] := by decide +kernel
  have hwritten : written mixedRun (start Host.firstThread options beforeMixedRun).1 =
      [⟨⟨1, 1⟩, ⟨.error, "direct", .ofDuration (.ofMillis 2)⟩⟩] := by decide +kernel
  obtain ⟨body, time, hlogged, -, hcalls, -, hsaid, -, hfree⟩ := @shutdown_logs_accepted .info
    Host.firstThread Host.firstThread options beforeMixedRun mixedRun hlevel rfl isSpelled_turningClock
    (by decide +kernel) (by decide) renders_mixedRun
    (by
      intro front middle hpart _
      have hle := refusals_le middle (run front (start Host.firstThread options beforeMixedRun).1)
      have hlength := hpart.length_le
      have hsteps : mixedRun.length = 6 := rfl
      rw [List.length_append] at hlength
      omega)
    (by decide +kernel)
  exact ⟨body, time, hlogged, hcalls.trans hcaptured, hsaid.trans hwritten, hfree⟩

end Logger

end LogRelay
