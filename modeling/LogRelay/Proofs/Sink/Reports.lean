import LogRelay.Proofs.Sink.Call

/-!
# What a sink reports

By itself a sink reports its rotations, and among them those that fail. Nothing that it has reported matters
to what it does next, and no call changes the threshold from which records are wanted.
-/

namespace LogRelay

/-- The fault that an event tells of. -/
def Event.fault? : Event → Option IoFault
  | rotationFailed _ fault | flushOnDropFailed _ fault | relayFailed _ fault
  | recordFailed _ fault | flushOnCloseFailed _ fault | periodicFlushFailed _ fault => some fault
  | _ => none

/-- Whether an event tells of a fault. -/
def Event.isFault (event : Event) : Bool := event.fault?.isSome

/-- Whether an event tells of bytes that could not be written. A rotation that fails loses none. -/
def Event.isLoss : Event → Bool
  | rotationFailed _ _ => false
  | event => event.isFault

theorem Event.isFault_of_isLoss {event : Event} (hloss : event.isLoss = true) :
    event.isFault = true := by
  cases event <;> first | rfl | exact absurd hloss Bool.false_ne_true

/-- Number of events of a kind. -/
def Event.count (kind : Event → Bool) (events : Array Event) : Nat := events.countP kind

@[simp]
theorem Event.count_append (kind : Event → Bool) (front back : Array Event) :
    count kind (front ++ back) = count kind front + count kind back := by
  simp [count]

@[simp]
theorem Event.count_push (kind : Event → Bool) (events : Array Event) (event : Event) :
    count kind (events.push event) = count kind events + if kind event then 1 else 0 := by
  simp [count, Array.countP_push]

theorem Event.count_le_push (kind : Event → Bool) (events : Array Event) (event : Event) :
    count kind events ≤ count kind (events.push event) := by
  rw [count_push]
  exact Nat.le_add_right _ _

namespace SinkState

/-- Number of events of a kind reported so far. -/
def count (kind : Event → Bool) (state : SinkState) : Nat := Event.count kind state.events

/-- A sink and its tree without what has been reported and without the threshold. -/
def quiet (state : SinkState) : SinkState :=
  { state with sink := { state.sink with threshold := .debug }, events := #[] }

theorem count_report (kind : Event → Bool) (event : Event) (state : SinkState) :
    (state.report event).count kind = state.count kind + if kind event then 1 else 0 :=
  Event.count_push _ _ _

/-! ## What a call comes down to -/

/-- The state in which a line of some bytes is taken. -/
def ready (state : SinkState) (count : Nat) : SinkState :=
  if state.isFull count then state.rotate else state

variable (state : SinkState)

theorem writeLine_cases (severity : Severity) (bytes : Bytes) :
    (writeLine severity bytes state).1 = ((state.ready bytes.length).append bytes).1 ∨
      (writeLine severity bytes state).1 = ((state.ready bytes.length).append bytes).1.flush.1 := by
  simp only [writeLine, ready]
  split
  · exact .inl rfl
  · split
    · exact .inr rfl
    · exact .inl rfl

/-- A call does nothing, flushes, or writes its line. -/
theorem call_cases (call : SinkCall) :
    (state.call call = state ∧ state.rotatesOn call = false) ∨
      (state.call call = state.flush.1 ∧ state.rotatesOn call = false) ∨
      ∃ severity bytes, state.call call = (writeLine severity bytes state).1 ∧
        state.rotatesOn call = state.isFull bytes.length := by
  cases call with
  | flush =>
      refine .inr (.inl ⟨rfl, ?_⟩)
      simp only [rotatesOn, SinkCall.line?]
  | write origin record =>
      simp only [SinkState.call, write, rotatesOn, SinkCall.line?]
      cases record.line? state.sink.format state.sink.name origin with
      | none => exact .inl ⟨rfl, rfl⟩
      | some line =>
          refine .inr (.inr ⟨record.severity, Utf8.encode line, ?_, rfl⟩)
          simp only
          split <;> rfl

/-! ## What is reported -/

theorem events_append (bytes : Bytes) : (state.append bytes).1.events = state.events := by
  simp only [append]
  split <;> rfl

theorem events_rotate :
    state.rotate.events = state.events.push
      (match (state.sink.rotate state.files).fault with
        | some fault => .rotationFailed state.sink.name fault
        | none => .rotated state.sink.name state.sink.path) := by
  simp only [rotate]
  cases (state.sink.rotate state.files).fault <;> rfl

/-- The only thing that a sink reports by itself is a rotation. -/
theorem events_call (call : SinkCall) :
    (state.call call).events =
      if state.rotatesOn call then state.rotate.events else state.events := by
  obtain ⟨hcall, hrotates⟩ | ⟨hcall, hrotates⟩ | ⟨severity, bytes, hcall, hrotates⟩ :=
    state.call_cases call
  · rw [hcall, hrotates, if_neg Bool.false_ne_true]
  · rw [hcall, hrotates, if_neg Bool.false_ne_true]
    rfl
  · have hready : (state.ready bytes.length).events =
        if state.isFull bytes.length then state.rotate.events else state.events := by
      unfold ready
      split <;> rfl
    rw [hcall, hrotates, ← hready]
    rcases writeLine_cases state severity bytes with hwritten | hwritten
    · rw [hwritten, events_append]
    · rw [hwritten]
      exact events_append _ bytes

theorem count_rotate_isFault :
    state.rotate.count Event.isFault = state.count Event.isFault +
      if (state.sink.rotate state.files).fault.isSome then 1 else 0 := by
  rw [count, events_rotate, Event.count_push]
  cases (state.sink.rotate state.files).fault <;> rfl

theorem count_le_call (kind : Event → Bool) (call : SinkCall) :
    state.count kind ≤ (state.call call).count kind := by
  rw [count, count, events_call]
  split
  · rw [events_rotate]
    exact Event.count_le_push _ _ _
  · exact Nat.le_refl _

theorem rotate_of_count_eq {state : SinkState} {call : SinkCall}
    (hfaults : (state.call call).count Event.isFault = state.count Event.isFault)
    (hrotates : state.rotatesOn call = true) : (state.sink.rotate state.files).fault = none := by
  have hrotate := count_rotate_isFault state
  rw [count, events_call, if_pos hrotates] at hfaults
  cases hfault : (state.sink.rotate state.files).fault with
  | none => rfl
  | some fault =>
      rw [hfault] at hrotate
      simp only [count, Option.isSome_some, if_true] at hrotate hfaults
      omega

/-! ## What stays the same -/

theorem threshold_append (bytes : Bytes) :
    (state.append bytes).1.sink.threshold = state.sink.threshold := by
  simp only [append]
  split <;> rfl

theorem threshold_rotate : state.rotate.sink.threshold = state.sink.threshold := by
  have hsink : (state.sink.rotate state.files).state.threshold = state.sink.threshold := by
    simp only [Sink.rotate]
    split
    · rfl
    · split
      · rfl
      · split <;> rfl
  rw [← hsink]
  simp only [rotate]
  split <;> rfl

/-- Calls never change the threshold. -/
theorem threshold_call (call : SinkCall) :
    (state.call call).sink.threshold = state.sink.threshold := by
  obtain ⟨hcall, -⟩ | ⟨hcall, -⟩ | ⟨severity, bytes, hcall, -⟩ := state.call_cases call
  · rw [hcall]
  · rw [hcall]
    rfl
  · have hready : (state.ready bytes.length).sink.threshold = state.sink.threshold := by
      unfold ready
      split
      · exact threshold_rotate state
      · rfl
    rw [hcall, ← hready]
    rcases writeLine_cases state severity bytes with hwritten | hwritten
    · rw [hwritten, threshold_append]
    · rw [hwritten]
      exact threshold_append _ bytes

/-! ## What events and the threshold do not matter to -/

theorem quiet_eq_iff {first second : SinkState} :
    first.quiet = second.quiet ↔
      { first.sink with threshold := .debug } = { second.sink with threshold := .debug } ∧
        first.files = second.files := by
  simp [quiet]

theorem append_quiet (bytes : Bytes) :
    (state.quiet.append bytes).1.quiet = (state.append bytes).1.quiet ∧
      (state.quiet.append bytes).2 = (state.append bytes).2 := by
  simp only [append, quiet]
  split <;> exact ⟨rfl, rfl⟩

theorem flush_quiet :
    state.quiet.flush.1.quiet = state.flush.1.quiet ∧ state.quiet.flush.2 = state.flush.2 :=
  ⟨rfl, rfl⟩

theorem moveAllUp_threshold (sink : Sink) (threshold : Severity) (number : Nat)
    (files : FileTree) :
    Sink.moveAllUp { sink with threshold := threshold } number files =
      sink.moveAllUp number files := by
  induction number generalizing files with
  | zero => rfl
  | succ number induction =>
      rw [Sink.moveAllUp, Sink.moveAllUp]
      exact congrArg (FileTree.Attempt.andThen _) (funext induction)

theorem rotate_quiet :
    (state.quiet.sink.rotate state.quiet.files).fault = (state.sink.rotate state.files).fault ∧
      state.quiet.rotate.quiet = state.rotate.quiet := by
  have hmoved : ∀ files, state.quiet.sink.moveAllUp state.quiet.sink.maxFiles files =
      state.sink.moveAllUp state.sink.maxFiles files :=
    moveAllUp_threshold state.sink .debug state.sink.maxFiles
  have hrotate : state.quiet.sink.rotate state.quiet.files =
      { state.sink.rotate state.files with
        state := { (state.sink.rotate state.files).state with threshold := .debug } } := by
    rw [Sink.rotate, Sink.rotate]
    simp only [hmoved]
    simp only [quiet]
    split
    · rfl
    · split
      · rfl
      · split <;> rfl
  refine ⟨by rw [hrotate], ?_⟩
  rw [rotate, rotate, hrotate]
  simp only
  split <;> rfl

theorem ready_quiet (count : Nat) : (state.quiet.ready count).quiet = (state.ready count).quiet := by
  have hfull : state.quiet.isFull count = state.isFull count := rfl
  rw [ready, ready, hfull]
  split
  · exact (rotate_quiet state).2
  · rfl

/-- Writing a line comes to the same whatever the events and the threshold are. -/
theorem writeLine_congr {first second : SinkState} (hquiet : first.quiet = second.quiet)
    (severity : Severity) (bytes : Bytes) :
    (writeLine severity bytes first).1.quiet = (writeLine severity bytes second).1.quiet ∧
      (writeLine severity bytes first).2 = (writeLine severity bytes second).2 := by
  have hready : (first.ready bytes.length).quiet = (second.ready bytes.length).quiet := by
    rw [← ready_quiet first, ← ready_quiet second, hquiet]
  obtain ⟨hfirst, hfirstFault⟩ := append_quiet (first.ready bytes.length) bytes
  obtain ⟨hsecond, hsecondFault⟩ := append_quiet (second.ready bytes.length) bytes
  have hstate : ((first.ready bytes.length).append bytes).1.quiet =
      ((second.ready bytes.length).append bytes).1.quiet := by rw [← hfirst, hready, hsecond]
  have hfault : ((first.ready bytes.length).append bytes).2 =
      ((second.ready bytes.length).append bytes).2 := by rw [← hfirstFault, hready, hsecondFault]
  simp only [ready] at hstate hfault
  simp only [writeLine, hfault]
  split
  · exact ⟨hstate, rfl⟩
  · split
    · obtain ⟨hflushed, hflushedFault⟩ := flush_quiet ((first.ready bytes.length).append bytes).1
      obtain ⟨hother, hotherFault⟩ := flush_quiet ((second.ready bytes.length).append bytes).1
      simp only [ready] at hflushed hflushedFault hother hotherFault
      exact ⟨by rw [← hflushed, hstate, hother], by rw [← hflushedFault, hstate, hotherFault]⟩
    · exact ⟨hstate, rfl⟩

/-- What has been reported before and what is wanted do not matter to a call. -/
theorem call_congr {first second : SinkState} (hquiet : first.quiet = second.quiet)
    (call : SinkCall) :
    (first.call call).quiet = (second.call call).quiet ∧
      first.faultOf? call = second.faultOf? call ∧
      (first.Succeeds call ↔ second.Succeeds call) := by
  have hfault : (first.call call).quiet = (second.call call).quiet ∧
      first.faultOf? call = second.faultOf? call := by
    cases call with
    | flush =>
        obtain ⟨hfirst, hfirstFault⟩ := flush_quiet first
        obtain ⟨hsecond, hsecondFault⟩ := flush_quiet second
        exact ⟨by rw [SinkState.call, SinkState.call, ← hfirst, hquiet, hsecond],
          by rw [faultOf?, faultOf?, ← hfirstFault, hquiet, hsecondFault]⟩
    | write origin record =>
        have hline : record.line? first.sink.format first.sink.name origin =
            record.line? second.sink.format second.sink.name origin := by
          change record.line? first.quiet.sink.format first.quiet.sink.name origin = _
          rw [hquiet]
          rfl
        simp only [SinkState.call, faultOf?, write, hline]
        cases record.line? second.sink.format second.sink.name origin with
        | none => exact ⟨hquiet, rfl⟩
        | some line =>
            obtain ⟨hstate, hresult⟩ :=
              writeLine_congr hquiet record.severity (Utf8.encode line)
            simp only [hresult]
            split <;> exact ⟨hstate, rfl⟩
  have hrotates : first.rotatesOn call = second.rotatesOn call := by
    change first.quiet.rotatesOn call = _
    rw [hquiet]
    rfl
  have hrotate : (first.sink.rotate first.files).fault =
      (second.sink.rotate second.files).fault := by
    rw [← (rotate_quiet first).1, hquiet, (rotate_quiet second).1]
  refine ⟨hfault.1, hfault.2, ?_⟩
  rw [Succeeds, Succeeds, hrotates, hrotate, hfault.2]

end SinkState

end LogRelay
