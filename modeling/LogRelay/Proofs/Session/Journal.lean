import LogRelay.Logger
import LogRelay.Proofs.Capture.Backlog
import LogRelay.Proofs.Session.Relaying

/-!
# The journal of a session

A journal says which lines a session hands to its sink and what waits in its capture, without a queue, a
stream or a file. A call is written at once or captured; a pass writes what is due and reaches the threshold;
closing writes the farewell. Nothing is written after that.
-/

namespace LogRelay

/-- A message handed to a logger. -/
structure LogCall where
  /-- How severe it is. -/
  severity : Severity
  /-- What writes itself. -/
  payload : Payload
deriving DecidableEq, Repr

/-- A line of a session, by where it comes from. -/
inductive Line where
  | greeting (posting : Posting)
  | call (posting : Posting)
  | relayed (origin : Origin) (delivery : Delivery)
  | farewell (posting : Posting)
deriving DecidableEq, Repr

namespace Line

/-- What a line makes the sink write. -/
def posting : Line → Posting
  | greeting posting | call posting | farewell posting => posting
  | relayed origin delivery => delivery.view.posting origin

/-- What a call made the sink write at once. -/
def call? : Line → Option Posting
  | call posting => some posting
  | _ => none

/-- What was handed over by the capture. -/
def delivery? : Line → Option Delivery
  | relayed _ delivery => some delivery
  | _ => none

/-- Whether a line is a message and not a text of the session itself. -/
def isMessage : Line → Bool
  | call _ | relayed _ _ => true
  | greeting _ | farewell _ => false

end Line

/-- What has become of a session. -/
structure Journal where
  /-- The least severe records that are wanted. -/
  threshold : Severity
  /-- The clock. -/
  clock : Clock
  /-- The number of the process. -/
  process : Nat
  /-- The number of the thread that relays what was captured. -/
  drainer : Nat
  /-- What waits in the capture. -/
  backlog : Backlog
  /-- The lines handed to the sink, in order. -/
  lines : List Line
  /-- Whether the log was closed. -/
  closed : Bool

namespace Journal

/-- The journal of a session that starts. -/
def start (threshold : Severity) (clock : Clock) (process drainer : Nat) : Journal :=
  ⟨threshold, clock, process, drainer, .start threshold.toLevel, [], false⟩

/-- What a call makes the sink write at once, if it is wanted and writes itself to its end. -/
def posting? (thread : Nat) (call : LogCall) (journal : Journal) : Option Posting :=
  if call.severity.reaches journal.threshold then
    call.payload.text?.map fun text =>
      ⟨⟨journal.process, thread⟩, ⟨call.severity, text, .ofDuration journal.clock.now⟩⟩
  else none

/-- A call of a thread is written at once. -/
def write (line : Posting → Line) (thread : Nat) (call : LogCall) (journal : Journal) : Journal :=
  { journal with
    clock := journal.clock.tickIf (journal.posting? thread call).isSome
    lines := journal.lines ++ ((journal.posting? thread call).map line).toList }

theorem write_of_none {journal : Journal} {thread : Nat} {call : LogCall}
    (hposting : journal.posting? thread call = none) (line : Posting → Line) :
    journal.write line thread call = journal := by
  simp [write, hposting, Clock.tickIf]

theorem write_of_some {journal : Journal} {thread : Nat} {call : LogCall} {posting : Posting}
    (hposting : journal.posting? thread call = some posting) (line : Posting → Line) :
    journal.write line thread call =
      { journal with clock := journal.clock.tick, lines := journal.lines ++ [line posting] } := by
  simp [write, hposting, Clock.tickIf]

theorem time_of_posting? {journal : Journal} {thread : Nat} {call : LogCall} {posting : Posting}
    (hposting : journal.posting? thread call = some posting) :
    posting.record.time = .ofDuration journal.clock.now := by
  rw [posting?] at hposting
  split at hposting
  · obtain ⟨text, -, rfl⟩ := Option.map_eq_some_iff.1 hposting
    rfl
  · exact absurd hposting (Option.some_ne_none _).symm

/-- A call is captured. -/
def capture (level : Level) (payload : Payload) (journal : Journal) : Journal :=
  { journal with
    clock := journal.clock.tickIf (level.passes journal.backlog.level)
    backlog := journal.backlog.log Session.slotCount (Session.messageSize - 1) journal.clock.now level
      payload }

/-- The lines of what is due: those that reach the threshold, and none once the log is closed. -/
def dueLines (journal : Journal) : List Line :=
  if journal.closed then []
  else
    ((journal.backlog.due journal.clock.now).map
      (.relayed ⟨journal.process, journal.drainer⟩)).filter fun line =>
        line.posting.reaches journal.threshold

/-- The worker hands over what is due. -/
def pass (journal : Journal) : Journal :=
  { journal with
    clock := journal.clock.tickIf (journal.backlog.counted ≠ 0)
    backlog := journal.backlog.handedOver
    lines := journal.lines ++ journal.dueLines }

/-- The threshold is changed. -/
def setLevel (text : String) (journal : Journal) : Journal :=
  match Severity.parse? text with
  | none => { journal with backlog := { journal.backlog with level := Level.parseOrInfo text } }
  | some threshold =>
      { journal with
        threshold := threshold
        backlog := { journal.backlog with level := Level.parseOrInfo threshold.toLevel.name } }

/-- The last text is written, if the format has one. -/
def sayFarewell (format : LogFormat) (thread : Nat) (journal : Journal) : Journal :=
  match Logger.farewell? format with
  | some text => journal.write .farewell thread ⟨.info, .ofText text⟩
  | none => journal

/-- The log is closed, unless it is closed already. -/
def close (format : LogFormat) (thread : Nat) (journal : Journal) : Journal :=
  if journal.closed then journal
  else { journal.sayFarewell format thread with closed := true }

/-! ## Texts of the session -/

/-- The line of a text of the session itself, if `info` reaches the threshold. -/
def textLines (line : Posting → Line) (threshold : Severity) (origin : Origin) (text : String)
    (time : Duration) : List Line :=
  if Severity.info.reaches threshold then [line ⟨origin, ⟨.info, text, .ofDuration time⟩⟩] else []

/-- The line of the last text of a session, if the format has one and `info` reaches the threshold. -/
def farewellLines (format : LogFormat) (threshold : Severity) (origin : Origin) (time : Duration) :
    List Line :=
  (Logger.farewell? format).toList.flatMap fun text =>
    textLines .farewell threshold origin text time

theorem lines_write_ofText (line : Posting → Line) (thread : Nat) (text : String)
    (journal : Journal) :
    (journal.write line thread ⟨.info, .ofText text⟩).lines = journal.lines ++
      textLines line journal.threshold ⟨journal.process, thread⟩ text journal.clock.now := by
  simp only [write, posting?, Payload.text?_ofText, textLines]
  split <;> rfl

theorem lines_sayFarewell (format : LogFormat) (thread : Nat) (journal : Journal) :
    (journal.sayFarewell format thread).lines = journal.lines ++
      farewellLines format journal.threshold ⟨journal.process, thread⟩ journal.clock.now := by
  rw [sayFarewell, farewellLines]
  cases Logger.farewell? format with
  | none => simp
  | some text =>
      rw [Option.toList_some, List.flatMap_singleton]
      exact lines_write_ofText .farewell thread text journal

end Journal

end LogRelay
