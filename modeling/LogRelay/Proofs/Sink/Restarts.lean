import LogRelay.Proofs.Sink.Partition
import LogRelay.Proofs.Sink.Settled

/-!
# Restarts

A sink can be flushed at any time, and it can be closed and opened again. Neither leaves a trace: the tree at
the end is that of the lines alone, entered one after the other.
-/

namespace LogRelay

/-- Who writes a line, if the line tells: a text line does not. -/
def LogFormat.shown? : LogFormat → Origin → Option Origin
  | text, _ => none
  | json, origin => some origin

/-- A call on a sink, or a restart: the sink is closed and opened again with its settings. -/
inductive Visit where
  | call (call : SinkCall)
  | restart
deriving DecidableEq, Repr

/-- The tree after some lines, if nothing fails. -/
def Sink.enterAll? (sink : Sink) : List Bytes → FileTree → Option FileTree
  | [], tree => some tree
  | line :: rest, tree => (sink.enter? tree line).bind (sink.enterAll? rest)

theorem Sink.enterAll?_congr {first second : Sink} (hsame : first.SameSettings second)
    (lines : List Bytes) (tree : FileTree) :
    second.enterAll? lines tree = first.enterAll? lines tree := by
  induction lines generalizing tree with
  | nil => rfl
  | cons line rest induction =>
      rw [enterAll?, enterAll?, enter?_congr hsame, funext induction]

/-- The state after a restart, if nothing fails. -/
def SinkState.restart? (state : SinkState) : Option SinkState :=
  let dropped := state.drop
  let opened := Sink.start state.sink.name state.sink.path state.sink.format state.sink.maxSize
    state.sink.maxFiles dropped.files
  if state.flush.2 = none then
    opened.2.toOption.map fun sink => ⟨sink, opened.1, dropped.events⟩
  else none

namespace Visit

/-- The state after a visit, if nothing that it asks of the file system fails. -/
def next? (state : SinkState) : Visit → Option SinkState
  | call request => if state.Succeeds request then some (state.call request) else none
  | restart => state.restart?

/-- The state after some visits, if nothing that they ask of the file system fails. -/
def run? : List Visit → SinkState → Option SinkState
  | [], state => some state
  | visit :: rest, state => (visit.next? state).bind (run? rest)

/-- The bytes of the line that a visit hands to a sink. -/
def line? (sink : Sink) : Visit → Option Bytes
  | call request => request.line? sink
  | restart => none

/-- What of a visit shows in the files: the record, and in some formats also who writes it. -/
def record? (format : LogFormat) : Visit → Option (Record × Option Origin)
  | call (.write origin record) => some (record, format.shown? origin)
  | _ => none

/-- The line of what shows in the files. -/
def recordLine? (format : LogFormat) (name : String) (shown : Record × Option Origin) : Option Bytes :=
  (shown.1.line? format name (shown.2.getD ⟨0, 0⟩)).map Utf8.encode

theorem line?_eq_bind (sink : Sink) (visit : Visit) :
    visit.line? sink = (visit.record? sink.format).bind (recordLine? sink.format sink.name) := by
  cases visit with
  | restart => rfl
  | call request =>
      cases request with
      | flush => rfl
      | write origin record =>
          rw [line?, SinkCall.line?, record?, Option.bind_some, recordLine?]
          cases sink.format <;> rfl

theorem lines_eq (sink : Sink) (visits : List Visit) :
    visits.filterMap (line? sink) =
      (visits.filterMap (record? sink.format)).filterMap (recordLine? sink.format sink.name) := by
  rw [List.filterMap_filterMap]
  exact congrArg (fun line? => visits.filterMap line?) (funext (line?_eq_bind sink))

theorem line?_congr {first second : Sink} (hsame : first.SameSettings second) (visit : Visit) :
    visit.line? second = visit.line? first := by
  cases visit with
  | call request => exact request.line?_congr hsame
  | restart => rfl

end Visit

namespace SinkState

variable {state next : SinkState}

/-! ## One visit -/

/-- A restart succeeds, and finds the settled tree. -/
theorem Moored.restart (hmoored : state.Moored) :
    ∃ next, state.restart? = some next ∧ next.Moored ∧ state.sink.SameSettings next.sink ∧
      next.settled = state.settled := by
  obtain ⟨flushed, hflush, hnext, -, -, -, hsettings⟩ := hmoored.flush
  obtain ⟨file, hfile, -⟩ := hnext.follows
  have hfiles : flushed.files = state.settled := by rw [settled, hflush]
  have hshelf := hnext.shelf
  rw [hsettings.path_eq, hfiles] at hfile hshelf
  have hstart : Sink.start state.sink.name state.sink.path state.sink.format state.sink.maxSize
      state.sink.maxFiles state.settled = _ := Sink.start_of_row hshelf hfile
  obtain ⟨folder, name, hpath⟩ := hshelf.endsIn
  obtain ⟨hopened, -⟩ := Sink.moored_start hshelf.sound hpath.descends
    (hsettings.maxFiles_eq ▸ hshelf.holdsFiles) hstart state.drop.events
  refine ⟨_, ?_, hopened, ⟨rfl, rfl, rfl, rfl, rfl⟩, settled_of_held rfl⟩
  rw [restart?, hflush, if_pos rfl, files_drop, hstart]
  rfl

/-- What a visit that succeeds leaves of the settings. -/
theorem Moored.next? (hmoored : state.Moored) {visit : Visit}
    (hvisit : visit.next? state = some next) : next.Moored ∧ state.sink.SameSettings next.sink := by
  cases visit with
  | call request =>
      rw [Visit.next?] at hvisit
      split at hvisit
      · next hsucceeds =>
        obtain rfl := Option.some.inj hvisit
        obtain ⟨hnext, hsettings, -⟩ := hmoored.call hsucceeds
        exact ⟨hnext, hsettings⟩
      · exact absurd hvisit.symm (Option.some_ne_none next)
  | restart =>
      obtain ⟨restarted, hrestart, hnext, hsettings, -⟩ := hmoored.restart
      obtain rfl : restarted = next := Option.some.inj (hrestart.symm.trans hvisit)
      exact ⟨hnext, hsettings⟩

theorem Moored.settled_next? (hmoored : state.Moored) (visit : Visit) :
    (visit.next? state).map settled =
      (visit.line? state.sink).elim (some state.settled) (state.sink.enter? state.settled) := by
  cases visit with
  | call request =>
      rw [Visit.line?, ← hmoored.settled_call, Visit.next?]
      split <;> rfl
  | restart =>
      obtain ⟨restarted, hrestart, -, -, hsettled⟩ := hmoored.restart
      rw [Visit.next?, hrestart, Option.map_some, hsettled]
      rfl

/-! ## Runs -/

/-- Visits change the settled tree by their lines, and succeed exactly if these can be entered. -/
theorem Moored.settled_run? (hmoored : state.Moored) (visits : List Visit) :
    (Visit.run? visits state).map settled =
      state.sink.enterAll? (visits.filterMap (Visit.line? state.sink)) state.settled := by
  induction visits generalizing state with
  | nil => rfl
  | cons visit rest induction =>
      have hvisit := hmoored.settled_next? visit
      have hlater : ∀ {next}, visit.next? state = some next →
          (Visit.run? rest next).map settled =
            state.sink.enterAll? (rest.filterMap (Visit.line? state.sink)) next.settled := by
        intro next hnext
        obtain ⟨hmooredNext, hsettings⟩ := hmoored.next? hnext
        rw [induction hmooredNext, Sink.enterAll?_congr hsettings,
          funext (Visit.line?_congr hsettings)]
      rw [Visit.run?, List.filterMap_cons]
      cases hline : visit.line? state.sink with
      | none =>
          rw [hline] at hvisit
          obtain ⟨next, hnext, hsettled⟩ := Option.map_eq_some_iff.1 hvisit
          rw [hnext, Option.bind_some, hlater hnext, hsettled]
      | some line =>
          rw [hline, Option.elim_some] at hvisit
          simp only [Sink.enterAll?, ← hvisit]
          cases hnext : visit.next? state with
          | none => rfl
          | some next => exact hlater hnext

theorem Moored.run? (hmoored : state.Moored) {visits : List Visit} {last : SinkState}
    (hvisits : Visit.run? visits state = some last) : last.Moored := by
  induction visits generalizing state with
  | nil => exact Option.some.inj hvisits ▸ hmoored
  | cons visit rest induction =>
      obtain ⟨next, hnext, hrest⟩ := Option.bind_eq_some_iff.1 hvisits
      exact induction (hmoored.next? hnext).1 hrest

end SinkState

/-- Restarts and flushes leave no trace. Opened in any sound tree whose files at the path and at the rotated
paths are regular or absent, a sink is visited in two ways that show the same records, and differ in when
the sink is flushed and when it is closed and opened again. If nothing fails in the first, then nothing fails
in the second, and once the sink is closed at the end both have left the very same tree. -/
theorem Sink.restarts_leave_no_trace {name path : String} {format : LogFormat} {maxSize maxFiles : Nat}
    {files opened : FileTree} {sink : Sink} (hsound : files.Sound)
    (hdescends : Path.above ∉ Path.split path.toList)
    (hfiles : files.HoldsFiles path.toList maxFiles)
    (hstart : Sink.start name path format maxSize maxFiles files = (opened, .ok sink))
    (events : Array Event) {visits others : List Visit}
    (hsame : visits.filterMap (Visit.record? format) = others.filterMap (Visit.record? format))
    {last : SinkState} (hlast : Visit.run? visits ⟨sink, opened, events⟩ = some last) :
    ∃ final, Visit.run? others ⟨sink, opened, events⟩ = some final ∧
      last.flush.2 = none ∧ final.flush.2 = none ∧ final.drop.files = last.drop.files := by
  have hformat : sink.format = format := by
    obtain ⟨-, -, -, -, rfl⟩ := Sink.start_ok hstart
    rfl
  obtain ⟨hmoored, -, -⟩ := Sink.moored_start hsound hdescends hfiles hstart events
  have hvisits := hmoored.settled_run? visits
  have hothers := hmoored.settled_run? others
  rw [Visit.lines_eq, hformat, ← hsame, ← hformat, ← Visit.lines_eq, ← hvisits, hlast,
    Option.map_some] at hothers
  obtain ⟨final, hfinal, hsettled⟩ := Option.map_eq_some_iff.1 hothers
  obtain ⟨_, hlastFlush, -⟩ := (hmoored.run? hlast).flush
  obtain ⟨_, hfinalFlush, -⟩ := (hmoored.run? hfinal).flush
  refine ⟨final, hfinal, by rw [hlastFlush], by rw [hfinalFlush], ?_⟩
  rw [SinkState.files_drop, SinkState.files_drop, hsettled]

/-! ## Three lines -/

/-- A line of a sink that was opened in the initial tree. -/
def Visit.line (severity : Severity) (text : String) (thread : Nat) : Visit :=
  .call (.write ⟨1, thread⟩ ⟨severity, text, ⟨0⟩⟩)

/-- Three lines in one go. -/
def Visit.unbroken : List Visit := [line .info "one" 1, line .info "two" 1, line .info "three" 1]

/-- The same lines with restarts and flushes among them. -/
def Visit.broken : List Visit :=
  [.restart, line .info "one" 2, .call .flush, .restart, .restart, line .info "two" 3, .restart,
    line .info "three" 1, .call .flush]

/-- The sink rotates before the same lines, and leaves the same two files. -/
theorem Sink.broken_leaves_no_trace :
    let state : SinkState := ⟨Sink.small, FileTree.withLog, #[]⟩
    let line := fun text : String => Utf8.bytes ("[1970-01-01 00:00:00.000] " ++ text ++ "\n")
    ∃ last final, Visit.run? Visit.unbroken state = some last ∧
      Visit.run? Visit.broken state = some final ∧
      final.drop.files = last.drop.files ∧
      last.drop.logFiles = [line "[info] two", line "[info] three"] := by
  intro state line
  have hrecords : Visit.unbroken.filterMap (Visit.record? .text) =
      Visit.broken.filterMap (Visit.record? .text) := rfl
  have hleft : (Visit.run? Visit.unbroken state).map (fun last => last.drop.logFiles) =
      some [line "[info] two", line "[info] three"] := by decide +kernel
  obtain ⟨last, hlast, hlog⟩ := Option.map_eq_some_iff.1 hleft
  obtain ⟨final, hfinal, -, -, hsame⟩ := Sink.restarts_leave_no_trace FileTree.sound_initial
    (by decide) FileTree.holdsFiles_initial Sink.start_small #[] hrecords hlast
  exact ⟨last, final, hlast, hfinal, hsame, hlog⟩

end LogRelay
