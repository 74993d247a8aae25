import LogRelay.Proofs.Session.Journal

/-!
# What a journal accounts for

The lines of a journal, with what waits, account for every call: what was written at once is there in its
order, and what was captured is relayed in its order or waits. A threshold below `critical` keeps none of the
captured calls back, and one that a warning reaches keeps no report back either.
-/

namespace LogRelay

namespace EnabledCall

/-- The calls that were not refused, in order. -/
def accepted (calls : List EnabledCall) : List View :=
  (calls.filter fun call => !call.refused).map view

/-- Number of calls that were refused. -/
def refusals (calls : List EnabledCall) : Nat := calls.countP refused

theorem accepted_append (front back : List EnabledCall) :
    accepted (front ++ back) = accepted front ++ accepted back := by
  simp [accepted]

theorem refusals_append (front back : List EnabledCall) :
    refusals (front ++ back) = refusals front + refusals back := by
  simp [refusals]

end EnabledCall

/-- The captured calls among some lines. -/
def Line.relayedCalls (lines : List Line) : List View :=
  (lines.filterMap Line.delivery?).filterMap Delivery.call?

theorem Line.relayedCalls_append (front back : List Line) :
    relayedCalls (front ++ back) = relayedCalls front ++ relayedCalls back := by
  rw [relayedCalls, List.filterMap_append, List.filterMap_append, ← relayedCalls, ← relayedCalls]

namespace Journal

/-- The lines of an open journal behind the first text of its session: with what waits, they hold the calls
that were taken and what was written at once. -/
structure Conveys (threshold : Severity) (opening body : List Line) (taken : List View)
    (said : List Posting) (journal : Journal) : Prop where
  /-- The threshold is the same. -/
  threshold_eq : journal.threshold = threshold
  /-- The level of the capture is that of the threshold. -/
  level_eq : journal.backlog.level = threshold.toLevel
  /-- The log is open. -/
  closed_eq : journal.closed = false
  /-- What waits was let through. -/
  passes : ∀ view ∈ journal.backlog.waiting, view.level.passes threshold.toLevel = true
  /-- The lines follow the first text. -/
  lines_eq : journal.lines = opening ++ body
  /-- They are messages. -/
  isMessage : ∀ line ∈ body, line.isMessage = true
  /-- The calls taken are those relayed and those waiting, in this order. -/
  taken_eq : taken = Line.relayedCalls body ++ journal.backlog.waiting
  /-- What was written at once is there, in order. -/
  said_eq : body.filterMap Line.call? = said

variable {threshold : Severity} {opening body : List Line} {taken : List View}
  {said : List Posting} {journal : Journal}

/-- Every line of a pass relays something. -/
theorem isMessage_dueLines (journal : Journal) :
    (∀ line ∈ journal.dueLines, line.isMessage = true) ∧
      journal.dueLines.filterMap Line.call? = [] := by
  have hrelayed : ∀ line ∈ journal.dueLines, ∃ origin delivery, line = .relayed origin delivery := by
    intro line hline
    rw [dueLines] at hline
    split at hline
    · exact absurd hline List.not_mem_nil
    · obtain ⟨delivery, -, rfl⟩ := List.mem_map.1 (List.mem_filter.1 hline).1
      exact ⟨_, _, rfl⟩
  constructor
  · intro line hline
    obtain ⟨origin, delivery, rfl⟩ := hrelayed line hline
    rfl
  · rw [List.filterMap_eq_nil_iff]
    intro line hline
    obtain ⟨origin, delivery, rfl⟩ := hrelayed line hline
    rfl

/-- A pass relays every call that waits: a threshold below `critical` keeps none of them back. -/
theorem Conveys.relayedCalls_dueLines (hconveys : Conveys threshold opening body taken said journal)
    (hcritical : threshold ≠ .critical) :
    Line.relayedCalls journal.dueLines = journal.backlog.waiting := by
  let reaches := fun delivery : Delivery =>
    (delivery.view.posting ⟨journal.process, journal.drainer⟩).reaches journal.threshold
  have hdue : journal.dueLines.filterMap Line.delivery? =
      (journal.backlog.due journal.clock.now).filter reaches := by
    rw [dueLines, hconveys.closed_eq, if_neg Bool.false_ne_true, List.filter_map, List.filterMap_map]
    exact List.filterMap_some
  have hcalls : (journal.backlog.waiting.map Delivery.call).filter reaches =
      journal.backlog.waiting.map Delivery.call := by
    rw [List.filter_eq_self]
    intro delivery hdelivery
    obtain ⟨view, hview, rfl⟩ := List.mem_map.1 hdelivery
    have hpasses := hconveys.passes view hview
    rw [Level.passes_toLevel_iff hcritical, ← hconveys.threshold_eq] at hpasses
    exact hpasses
  have hreport : ∀ time count,
      ([Delivery.report time count].filter reaches).filterMap Delivery.call? = [] := by
    intro time count
    rw [List.filter_singleton]
    cases reaches (.report time count) <;> rfl
  rw [Line.relayedCalls, hdue, Backlog.due, List.filter_append, List.filterMap_append, hcalls,
    Delivery.filterMap_call]
  split
  · exact List.append_nil _
  · rw [hreport, List.append_nil]

theorem Conveys.pass (hconveys : Conveys threshold opening body taken said journal)
    (hcritical : threshold ≠ .critical) :
    Conveys threshold opening (body ++ journal.dueLines) taken said journal.pass := by
  obtain ⟨hmessages, hnone⟩ := journal.isMessage_dueLines
  refine ⟨hconveys.threshold_eq, hconveys.level_eq, hconveys.closed_eq,
    fun view hmem => absurd hmem List.not_mem_nil, ?_, ?_, ?_, ?_⟩
  · rw [Journal.pass, hconveys.lines_eq, List.append_assoc]
  · intro line hmem
    rcases List.mem_append.1 hmem with hbefore | hdue
    · exact hconveys.isMessage line hbefore
    · exact hmessages line hdue
  · rw [hconveys.taken_eq, Line.relayedCalls_append, hconveys.relayedCalls_dueLines hcritical]
    exact (List.append_nil _).symm
  · rw [List.filterMap_append, hnone, List.append_nil, hconveys.said_eq]

/-- A call of an ordinary thread is written at once. -/
theorem Conveys.write (hconveys : Conveys threshold opening body taken said journal) (thread : Nat)
    (call : LogCall) :
    let line := ((journal.posting? thread call).map Line.call).toList
    Conveys threshold opening (body ++ line) taken (said ++ (journal.posting? thread call).toList)
        (journal.write .call thread call) ∧ line.filterMap Line.delivery? = [] := by
  intro line
  have hline : (∀ other ∈ line, other.isMessage = true) ∧ line.filterMap Line.delivery? = [] ∧
      line.filterMap Line.call? = (journal.posting? thread call).toList := by
    cases hposting : journal.posting? thread call <;> simp [line, hposting, Line.isMessage,
      Line.delivery?, Line.call?]
  obtain ⟨hmessage, hdeliveries, hcalls⟩ := hline
  refine ⟨⟨hconveys.threshold_eq, hconveys.level_eq, hconveys.closed_eq, hconveys.passes, ?_, ?_, ?_,
    ?_⟩, hdeliveries⟩
  · rw [Journal.write, hconveys.lines_eq, List.append_assoc]
  · intro other hmem
    rcases List.mem_append.1 hmem with hbefore | hlast
    · exact hconveys.isMessage other hbefore
    · exact hmessage other hlast
  · rw [Line.relayedCalls, List.filterMap_append, hdeliveries, List.append_nil]
    exact hconveys.taken_eq
  · rw [List.filterMap_append, hcalls, hconveys.said_eq]

/-- A call of a real-time thread waits if it is taken. -/
theorem Conveys.capture (hconveys : Conveys threshold opening body taken said journal) (level : Level)
    (payload : Payload) :
    Conveys threshold opening body
      (taken ++ (journal.backlog.taken? Session.slotCount (Session.messageSize - 1) journal.clock.now
        level payload).toList) said (journal.capture level payload) := by
  have hwaiting := journal.backlog.waiting_log Session.slotCount (Session.messageSize - 1)
    journal.clock.now level payload
  have hlevel := journal.backlog.level_log Session.slotCount (Session.messageSize - 1)
    journal.clock.now level payload
  refine ⟨hconveys.threshold_eq, hlevel.trans hconveys.level_eq, hconveys.closed_eq, ?_,
    hconveys.lines_eq, hconveys.isMessage, ?_, hconveys.said_eq⟩
  · intro view hmem
    have hsplit : view ∈ journal.backlog.waiting ++ _ := hwaiting ▸ hmem
    rcases List.mem_append.1 hsplit with hbefore | hlast
    · exact hconveys.passes view hbefore
    · rw [Backlog.taken?, Option.mem_toList] at hlast
      split at hlast
      · next htaken =>
        obtain rfl := Option.some.inj hlast
        rw [← hconveys.level_eq]
        exact htaken.1
      · exact absurd hlast (Option.some_ne_none _).symm
  · have hjournal : (journal.capture level payload).backlog.waiting = _ := hwaiting
    rw [hjournal, hconveys.taken_eq, List.append_assoc]

/-- A pass reports what the capture counted, if a warning reaches the threshold. -/
theorem Conveys.sum_counts_dueLines (hconveys : Conveys threshold opening body taken said journal)
    (hwarning : Severity.warning.reaches threshold = true) :
    ((journal.dueLines.filterMap Line.delivery?).map Delivery.count).sum = journal.backlog.counted := by
  have hcritical := Severity.ne_critical_of_warning_reaches hwarning
  have hall : journal.dueLines = (journal.backlog.due journal.clock.now).map
      (.relayed ⟨journal.process, journal.drainer⟩) := by
    rw [dueLines, hconveys.closed_eq, if_neg Bool.false_ne_true, List.filter_eq_self]
    intro line hline
    obtain ⟨delivery, hdelivery, rfl⟩ := List.mem_map.1 hline
    rw [hconveys.threshold_eq]
    rcases List.mem_append.1 hdelivery with hcall | hreport
    · obtain ⟨view, hview, rfl⟩ := List.mem_map.1 hcall
      exact (Level.passes_toLevel_iff hcritical).symm.trans (hconveys.passes view hview)
    · split at hreport
      · exact absurd hreport List.not_mem_nil
      · rw [List.mem_singleton.1 hreport]
        exact hwarning
  have hdeliveries : journal.dueLines.filterMap Line.delivery? =
      journal.backlog.due journal.clock.now := by
    rw [hall, List.filterMap_map]
    exact List.filterMap_some
  rw [hdeliveries]
  exact Backlog.sum_count_due _ _

end Journal

end LogRelay
