import LogRelay.Proofs.Logger.Shutdown

/-!
# What closing a log loses

A log that is closed is flushed, but what waits in the capture is not relayed first, and every later pass
passes it over. So the calls that are written are those taken up to the last pass before the log was closed,
and the calls taken since then are lost. A logger that is shut down without being closed makes a last pass,
and all calls it took are written.
-/

namespace LogRelay

namespace Logger

/-- Only the calls up to the last pass are relayed in a run. -/
theorem relayedCalls_handed {probe : Probe} {format : LogFormat} {footing : Session.Footing}
    {journal : Journal} {state : Hosted Logger} {threshold : Severity} {opening : List Line}
    (hkeeps : Keeps probe format footing journal state)
    (hconveys : journal.Conveys threshold opening [] [] []) (hrefused : journal.backlog.refused = 0)
    (hcritical : threshold ≠ .critical) {steps : List Step}
    (hplain : ∀ step ∈ steps, step.isPlain = true) :
    Line.relayedCalls (handed steps state) = accepted (untilLastPass steps) state := by
  obtain ⟨since, hsplit, hsince, -⟩ := exists_untilLastPass steps
  have hfront : ∀ step ∈ untilLastPass steps, step.isPlain = true :=
    fun step hmem => hplain step (hsplit ▸ List.mem_append_left _ hmem)
  have hpassed := (hkeeps.conveys_run hconveys hcritical hfront).taken_eq
  have hnone := @rested_untilLastPass probe format journal hconveys.taken_eq.symm hrefused steps
  rw [hnone.1, List.append_nil] at hpassed
  have hlines : handed steps state =
      handed (untilLastPass steps) state ++ handed since (run (untilLastPass steps) state) := by
    conv_lhs => rw [hsplit]
    exact along_append _ _ _ _
  have hlater : Line.relayedCalls (handed since (run (untilLastPass steps) state)) = [] := by
    rw [Line.relayedCalls, deliveries_handed hsince]
    rfl
  rw [hlines, Line.relayedCalls_append, hlater, List.append_nil]
  exact hpassed.symm

variable {threshold : Severity}

/-- A logger that is closed has logged the calls that its queue took up to the last pass before that, each
once and in its turn; those that wait when it is closed are lost, whatever happens later. A logger that is
shut down without being closed has logged all of them. The other lines are those of ordinary threads and the
reports of the passes, which add up to the refused calls unless too many are refused between two passes. -/
theorem close_logs_relayed {starter : Thread} {options : SinkOptions} {before : Hosted Logger}
    {steps : List Step} (hlevel : Severity.parse? before.item.level = some threshold)
    (hcritical : threshold ≠ .critical) (hclock : before.host.clock.IsSpelled)
    (hstart : (start starter options before).2 = .ok ())
    (hplain : ∀ step ∈ steps, step.isPlain = true) :
    let idle := shutdown starter before
    let started := (start starter options before).1
    let used := run steps started
    let counts := fun lines : List Line =>
      ((lines.filterMap Line.delivery?).map Delivery.count).sum
    (∀ closer, (shutdown closer used).host.count Event.isFault = idle.host.count Event.isFault →
      LogsCalls options starter closer threshold (handed (steps ++ [.drain]) started)
        (accepted steps started) (written steps started) idle (shutdown closer used)) ∧
    (∀ closer later ender,
      (shutdown ender (run later (close closer used))).host.count Event.isFault =
        idle.host.count Event.isFault →
      LogsCalls options starter closer threshold (handed steps started)
        (accepted (untilLastPass steps) started) (written steps started) idle
        (shutdown ender (run later (close closer used)))) ∧
    accepted steps started = accepted (untilLastPass steps) started ++ used.item.waiting ∧
    (Severity.warning.reaches threshold = true →
      (∀ front middle, front ++ middle <+: steps → .drain ∉ middle →
        refusals middle (run front started) < 2 ^ 32) →
      counts (handed (steps ++ [.drain]) started) = refusals steps started ∧
        counts (handed steps started) = refusals (untilLastPass steps) started) := by
  intro idle started used counts
  obtain ⟨claim, files, sink, hstarts⟩ := starts_of_parse hlevel hstart
  have hkeeps := keeps_start hstarts hclock
  have hconveys := conveys_openedJournal starter options before threshold
  have hbody := hkeeps.conveys_run hconveys hcritical hplain
  have hused := hkeeps.run steps
  have hrelayed := relayedCalls_handed hkeeps hconveys rfl hcritical hplain
  refine ⟨fun closer => logsCalls_shutdown hlevel hcritical hclock hstart hplain, ?_, ?_, ?_⟩
  · intro closer later ender hsame
    have hopened : (openedHost starter options before files).count Event.isFault =
        idle.host.count Event.isFault := count_openedHost fun _ hfault => hfault
    have hlogged := ((hused.close closer).run later).hasLogged ender hstarts.open_eq
      (hsame.trans hopened.symm)
    have hprocess := Journal.process_run idle.item.probe idle.item.format steps
      (openedJournal starter options before threshold)
    rw [Journal.lines_finish_of_close hbody.closed_eq, hbody.lines_eq, lines_openedJournal,
      hbody.threshold_eq, hprocess] at hlogged
    exact ⟨⟨_, hlogged⟩, hbody.isMessage, hrelayed, hbody.said_eq⟩
  · rw [hused.waiting_eq, ← hrelayed]
    exact hbody.taken_eq
  · intro hwarning hfew
    have hsum := hkeeps.sum_counts_handed hconveys rfl hwarning hplain hfew
    exact ⟨hkeeps.sum_counts_pass hconveys rfl hwarning hplain hfew hsum, hsum⟩

/-! ## A call that waits -/

/-- Of two calls of a real-time thread the one made after the last pass is lost when the log is closed, and
written when it is not. -/
theorem close_mixedRun_loses_last :
    let options := SinkOptions.ofPath "app.log" "app"
    let used := run mixedRun (start Host.firstThread options beforeMixedRun).1
    let first : View := ⟨.warning, .ofMillis 1, "first"⟩
    let last : View := ⟨.info, .ofMillis 3, "last"⟩
    let direct : Posting := ⟨⟨1, 1⟩, ⟨.error, "direct", .ofDuration (.ofMillis 2)⟩⟩
    let relayed := fun view => Line.relayed ⟨1, 2⟩ (.call view)
    let logs := fun body calls left =>
      LogsCalls options Host.firstThread Host.firstThread .info body calls [direct] beforeMixedRun left
    logs [.call direct, relayed first, relayed last] [first, last]
        (shutdown Host.firstThread used) ∧
      logs [.call direct, relayed first] [first]
        (shutdown Host.firstThread (drain (close Host.firstThread used))) ∧
      used.item.waiting = [last] := by
  intro options used first last direct relayed logs
  let started := (start Host.firstThread options beforeMixedRun).1
  have hlevel : Severity.parse? beforeMixedRun.item.level = some .info := by decide +kernel
  obtain ⟨hdirect, hclosed, hwaiting, -⟩ := @close_logs_relayed .info Host.firstThread options
    beforeMixedRun mixedRun hlevel (by decide) isSpelled_turningClock (by decide +kernel) (by decide)
  have hfirst : accepted (untilLastPass mixedRun) started = [first] := by decide +kernel
  have hall : accepted mixedRun started = [first, last] := by decide +kernel
  have hsaid : written mixedRun started = [direct] := by decide +kernel
  have hpassed : handed (mixedRun ++ [.drain]) started =
      [.call direct, relayed first, relayed last] := by decide +kernel
  have hbefore : handed mixedRun started = [.call direct, relayed first] := by decide +kernel
  have hlogged := hdirect Host.firstThread (by decide +kernel)
  have hcut := hclosed Host.firstThread [.drain] Host.firstThread (by decide +kernel)
  rw [hall, hsaid, hpassed] at hlogged
  rw [hfirst, hsaid, hbefore] at hcut
  rw [hall, hfirst] at hwaiting
  exact ⟨hlogged, hcut, (List.cons.inj hwaiting).2.symm⟩

/-- A call that the queue took is lost when the log is closed before the next pass, and no fault is
reported: the file of a logger that is closed and then shut down lacks its line, where that of a logger that
is shut down directly has it. -/
theorem close_loses_waiting :
    let before : Hosted Logger :=
      ⟨.idle "info" .text .zero .always, .initial (.steady 0 0) 1⟩
    let started := (start Host.firstThread (.ofPath "app.log" "app") before).1
    let lost := Step.log Host.firstThread ⟨.info, .ofText "lost"⟩
    let direct := shutdown Host.firstThread (step lost started)
    let closed := shutdown Host.firstThread (close Host.firstThread (step lost started))
    let log := fun left : Hosted Logger => left.host.files.logFiles "app.log".toList 1
    accepts? lost started = some ⟨.info, .zero, "lost"⟩ ∧
      closed.host.count Event.isFault = 0 ∧
      log closed = [Utf8.bytes "[1970-01-01 00:00:00.000] [info] Started logger: app.\n"] ∧
      log direct = [Utf8.bytes ("[1970-01-01 00:00:00.000] [info] Started logger: app.\n" ++
        "[1970-01-01 00:00:00.000] [info] lost\n")] := by
  decide +kernel

end Logger

end LogRelay
