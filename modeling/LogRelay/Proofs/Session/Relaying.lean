import LogRelay.Proofs.Capture.Pass
import LogRelay.Proofs.Sink.Notes
import LogRelay.Session

/-!
# What a relay tells a sink

A captured message that reaches the threshold of the sink is told to it, with the severity of its level and
the time at which it was captured; any other is passed over. The relay does not break down over a time that
can be spelled. Once the log is closed it passes everything over.
-/

namespace LogRelay

/-- The calendar can count a span since 1970, and a stamp can spell it. -/
def Duration.IsSpelled (span : Duration) : Prop :=
  Instant.ofDuration? span = some (.ofDuration span) ∧ (Instant.ofDuration span).civil.InRange

/-- Every reading of a clock can be spelled. -/
def Clock.IsSpelled (clock : Clock) : Prop := ∀ count, (clock.reading count).IsSpelled

theorem Clock.isSpelled_still : (Clock.steady 0 0).IsSpelled := by
  intro count
  have hzero : (Clock.steady 0 0).reading count = ⟨0⟩ := by simp [Clock.steady]
  rw [hzero]
  exact ⟨rfl, by decide⟩

/-- The record of a captured message. -/
def View.record (view : View) : Record := ⟨view.level.toSeverity, view.text, .ofDuration view.time⟩

/-- What a relay makes of a captured message. -/
def View.posting (origin : Origin) (view : View) : Posting := ⟨origin, view.record⟩

/-- Whether a posting reaches a threshold. -/
def Posting.reaches (threshold : Severity) (posting : Posting) : Bool :=
  posting.record.severity.reaches threshold

variable {size : Nat} {opened state : SinkState} {postings : List Posting}

theorem SinkState.write_ne_brokeDown (origin : Origin) {record : Record}
    (hrange : record.time.civil.InRange) (state : SinkState) :
    (state.write origin record).2 ≠ .brokeDown := by
  rw [write, Record.line?, if_pos hrange]
  simp only
  split <;> exact WriteResult.noConfusion

/-- What a relay does with a message whose time can be counted and spelled. -/
theorem Sink.relay_of_time (origin : Origin) {message : Message size} {time : Instant}
    (htime : message.time? = some time) (hrange : time.civil.InRange) (state : SinkState) :
    (Sink.outlet origin).relay message state =
      (if message.level.toSeverity.reaches state.sink.threshold then
        let call := SinkCall.write origin ⟨message.level.toSeverity, message.text, time⟩
        state.tell (.relayFailed (state.call call).sink.name) call
      else state, false) := by
  have hcalm := @SinkState.write_ne_brokeDown origin
    ⟨message.level.toSeverity, message.text, time⟩ hrange state
  simp only [Outlet.relay, Sink.outlet, htime, SinkState.tell, SinkState.faultOf?, SinkState.call]
  by_cases hreaches : message.level.toSeverity.reaches state.sink.threshold = true
  · rw [if_pos hreaches, if_pos hreaches]
    cases hresult : (state.write origin ⟨message.level.toSeverity, message.text, time⟩).2 with
    | done => rfl
    | refused fault => rfl
    | brokeDown => exact absurd hresult hcalm
  · rw [if_neg hreaches, if_neg hreaches]

theorem Sink.relay_outlet (origin : Origin) {message : Message size}
    (hspelled : message.timestamp.IsSpelled) (state : SinkState) :
    (Sink.outlet origin).relay message state =
      (if Posting.reaches state.sink.threshold (message.view.posting origin) then
        let call := SinkCall.write origin message.view.record
        state.tell (.relayFailed (state.call call).sink.name) call
      else state, false) :=
  Sink.relay_of_time origin hspelled.1 hspelled.2 state

theorem SinkState.threshold_tell (event : IoFault → Event) (call : SinkCall) (state : SinkState) :
    (state.tell event call).sink.threshold = state.sink.threshold := by
  rw [← state.threshold_call call, tell]
  split <;> rfl

theorem SinkState.Told.relay (htold : opened.Told postings state) (origin : Origin)
    {message : Message size} (hspelled : message.timestamp.IsSpelled) :
    opened.Told
        (postings ++ [message.view.posting origin].filter (Posting.reaches state.sink.threshold))
        ((Sink.outlet origin).relay message state).1 ∧
      ((Sink.outlet origin).relay message state).1.sink.threshold = state.sink.threshold := by
  rw [Sink.relay_outlet origin hspelled]
  simp only [List.filter_cons, List.filter_nil]
  split
  · have hline : (SinkCall.write origin message.view.record).IsSpelled := hspelled.2
    exact ⟨htold.tell hline fun _ => rfl, threshold_tell _ _ _⟩
  · rw [List.append_nil]
    exact ⟨htold, rfl⟩

theorem SinkState.Told.takeAll (htold : opened.Told postings state) (origin : Origin)
    {messages : List (Message size)} (hspelled : ∀ message ∈ messages, message.timestamp.IsSpelled) :
    let taken := Receiver.takeAll (Sink.outlet origin).relay messages state
    opened.Told (postings ++ ((messages.map Message.view).map (View.posting origin)).filter
        (Posting.reaches state.sink.threshold)) taken ∧
      taken.sink.threshold = state.sink.threshold := by
  induction messages generalizing state postings with
  | nil => simpa [Receiver.takeAll] using htold
  | cons message rest induction =>
      obtain ⟨hfirst, hsame⟩ := htold.relay origin (hspelled message List.mem_cons_self)
      obtain ⟨hrest, hthreshold⟩ := induction hfirst fun other hother =>
        hspelled other (List.mem_cons_of_mem message hother)
      rw [hsame, List.append_assoc, ← List.filter_append] at hrest
      exact ⟨hrest, hthreshold.trans hsame⟩

namespace Session

theorem receiver_calm (closed : Bool) (origin : Origin) {message : Message messageSize}
    (hspelled : message.timestamp.IsSpelled) (state : SinkState) :
    (receiver closed origin message state).2 = false := by
  rw [receiver]
  split
  · rfl
  · rw [Sink.relay_outlet origin hspelled]

/-- What the receiver tells of some messages: nothing once the log is closed. -/
theorem told_takeAll_receiver (htold : opened.Told postings state) (closed : Bool) (origin : Origin)
    {messages : List (Message messageSize)}
    (hspelled : ∀ message ∈ messages, message.timestamp.IsSpelled) :
    let taken := Receiver.takeAll (receiver closed origin) messages state
    opened.Told (postings ++ if closed then [] else
        ((messages.map Message.view).map (View.posting origin)).filter
          (Posting.reaches state.sink.threshold)) taken ∧
      taken.sink.threshold = state.sink.threshold := by
  have hreceiver : receiver closed origin = if closed then fun _ state => (state, false)
      else (Sink.outlet origin).relay := by
    funext message state
    rw [receiver]
    split <;> rfl
  cases closed with
  | false =>
      rw [hreceiver]
      exact htold.takeAll origin hspelled
  | true =>
      have hpassed : Receiver.takeAll (fun _ state => (state, false)) messages state = state := by
        induction messages with
        | nil => rfl
        | cons message rest induction =>
            exact induction fun other hother => hspelled other (List.mem_cons_of_mem message hother)
      rw [hreceiver]
      simp only [if_true, hpassed, List.append_nil, and_true]
      exact htold

end Session

end LogRelay
