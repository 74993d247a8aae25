import LogRelay.Proofs.Sink.Partition
import LogRelay.Proofs.Sink.Reports
import LogRelay.Relay
import Mathlib.Data.List.Basic

/-!
# What a sink has been told

A sink is told postings: records, each with who writes its line. Whoever tells them reports every fault. So a
sink without a new loss among its events has taken every line that it was told, and a sink without a new
fault is where calls lead that all succeed. What they leave in the files is a line for each posting behind
what was found there.
-/

namespace LogRelay

/-- What a line says, whoever writes it and whenever. -/
structure Note where
  /-- How severe it is. -/
  severity : Severity
  /-- The text. -/
  text : String
deriving DecidableEq, Repr

/-- Whether a note reaches a threshold. -/
def Note.reaches (threshold : Severity) (note : Note) : Bool := note.severity.reaches threshold

/-- A record with who writes its line. -/
structure Posting where
  /-- Who writes the line. -/
  origin : Origin
  /-- The record. -/
  record : Record
deriving DecidableEq, Repr

namespace Posting

/-- What a posting says. -/
def note (posting : Posting) : Note := ⟨posting.record.severity, posting.record.text⟩

/-- The bytes of the line that a posting leaves. -/
def bytes (format : LogFormat) (name : String) (posting : Posting) : Bytes :=
  Utf8.encode (posting.record.lineChars format name posting.origin)

end Posting

/-- The posting that a call makes a sink write. -/
def SinkCall.posting? : SinkCall → Option Posting
  | write origin record => some ⟨origin, record⟩
  | flush => none

/-- A stamp can spell the time of what is written. -/
def SinkCall.IsSpelled : SinkCall → Prop
  | write _ record => record.time.civil.InRange
  | flush => True

theorem SinkCall.line?_of_isSpelled {call : SinkCall} (hspelled : call.IsSpelled) (sink : Sink) :
    call.line? sink = call.posting?.map (Posting.bytes sink.format sink.name) := by
  cases call with
  | flush => rfl
  | write origin record =>
      have hrange : record.time.civil.InRange := hspelled
      simp [line?, posting?, Record.line?, hrange, Posting.bytes]

namespace SinkState

/-- Every line that some calls hand over is taken, and every flush succeeds; rotations may fail. -/
def AllTaken : List SinkCall → SinkState → Prop
  | [], _ => True
  | call :: rest, state => state.faultOf? call = none ∧ AllTaken rest (state.call call)

theorem allTaken_append {front back : List SinkCall} {state : SinkState} :
    AllTaken (front ++ back) state ↔ AllTaken front state ∧ AllTaken back (run front state) := by
  induction front generalizing state with
  | nil => simp [AllTaken, run]
  | cons call rest induction =>
      rw [List.cons_append, AllTaken, AllTaken, induction, run, and_assoc]

/-- Calls made one after the other that say some postings and lead to a state. -/
structure Performs (opened : SinkState) (calls : List SinkCall) (postings : List Posting)
    (state : SinkState) : Prop where
  /-- They lead to the state. -/
  quiet_eq : (run calls opened).quiet = state.quiet
  /-- They say the postings. -/
  postings_eq : calls.filterMap SinkCall.posting? = postings
  /-- Every posting has a line. -/
  spelled : ∀ call ∈ calls, call.IsSpelled
  /-- Without a new loss every line was taken. -/
  allTaken : state.count Event.isLoss = opened.count Event.isLoss → AllTaken calls opened
  /-- Without a new fault nothing failed. -/
  allSucceed : state.count Event.isFault = opened.count Event.isFault → AllSucceed calls opened

/-- What has become of an opened sink that was told some postings by callers that report every fault. -/
structure Told (opened : SinkState) (postings : List Posting) (state : SinkState) : Prop where
  /-- No report is taken back. -/
  count_le : ∀ kind, opened.count kind ≤ state.count kind
  /-- Calls told the postings. -/
  performs : ∃ calls, opened.Performs calls postings state

/-- Makes a call, and reports its fault. -/
def tell (event : IoFault → Event) (call : SinkCall) (state : SinkState) : SinkState :=
  match state.faultOf? call with
  | some fault => (state.call call).report (event fault)
  | none => state.call call

variable {opened state next : SinkState} {postings : List Posting}

theorem told_nil (opened : SinkState) : opened.Told [] opened :=
  ⟨fun _ => Nat.le_refl _, [], rfl, rfl, fun _ hmem => absurd hmem List.not_mem_nil,
    fun _ => trivial, fun _ => trivial⟩

theorem Told.of_quiet (htold : opened.Told postings state) (hquiet : next.quiet = state.quiet)
    (hcount : ∀ kind, state.count kind ≤ next.count kind) : opened.Told postings next := by
  obtain ⟨hle, calls, hcalls⟩ := htold
  refine ⟨fun kind => Nat.le_trans (hle kind) (hcount kind), calls,
    hcalls.quiet_eq.trans hquiet.symm, hcalls.postings_eq, hcalls.spelled, ?_, ?_⟩
  · intro heq
    have hopened := hle Event.isLoss
    have hnext := hcount Event.isLoss
    exact hcalls.allTaken (by omega)
  · intro heq
    have hopened := hle Event.isFault
    have hnext := hcount Event.isFault
    exact hcalls.allSucceed (by omega)

theorem Told.report (htold : opened.Told postings state) (event : Event) :
    opened.Told postings (state.report event) :=
  htold.of_quiet rfl fun _ => Event.count_le_push _ _ _

theorem count_le_tell (kind : Event → Bool) (event : IoFault → Event) (call : SinkCall)
    (state : SinkState) : state.count kind ≤ (state.tell event call).count kind := by
  have hcall := state.count_le_call kind call
  rw [tell]
  split
  · exact Nat.le_trans hcall (Event.count_le_push _ _ _)
  · exact hcall

theorem faultOf?_eq_none_of_count_eq {kind : Event → Bool} {event : IoFault → Event}
    (hevent : ∀ fault, kind (event fault) = true) {call : SinkCall} {state : SinkState}
    (hcount : (state.tell event call).count kind = state.count kind) :
    state.faultOf? call = none ∧ (state.call call).count kind = state.count kind := by
  have hcall := state.count_le_call kind call
  rw [tell] at hcount
  cases hfault : state.faultOf? call with
  | none =>
      rw [hfault] at hcount
      exact ⟨rfl, hcount⟩
  | some fault =>
      simp only [hfault, count_report, hevent, if_true] at hcount
      omega

/-- A call whose fault is reported tells its posting. -/
theorem Told.tell (htold : opened.Told postings state) {call : SinkCall}
    (hspelled : call.IsSpelled) {event : IoFault → Event}
    (hevent : ∀ fault, (event fault).isLoss = true) :
    opened.Told (postings ++ call.posting?.toList) (state.tell event call) := by
  obtain ⟨hle, calls, hcalls⟩ := htold
  have htell := fun kind => count_le_tell kind event call state
  obtain ⟨hsame, hfault, hsucceeds⟩ := call_congr hcalls.quiet_eq call
  refine ⟨fun kind => Nat.le_trans (hle kind) (htell kind), calls ++ [call], ?_, ?_, ?_, ?_, ?_⟩
  · rw [run_append]
    change ((run calls opened).call call).quiet = _
    rw [hsame, SinkState.tell]
    split <;> rfl
  · rw [List.filterMap_append, hcalls.postings_eq]
    cases call <;> rfl
  · intro other hother
    rcases List.mem_append.1 hother with hbefore | hlast
    · exact hcalls.spelled other hbefore
    · rwa [List.mem_singleton.1 hlast]
  · intro heq
    have hopened := hle Event.isLoss
    have hstate := htell Event.isLoss
    have hlast : (state.tell event call).count Event.isLoss = state.count Event.isLoss := by omega
    obtain ⟨hnone, -⟩ := faultOf?_eq_none_of_count_eq hevent hlast
    refine allTaken_append.2 ⟨hcalls.allTaken (by omega), ?_, trivial⟩
    rw [hfault, hnone]
  · intro heq
    have hopened := hle Event.isFault
    have hstate := htell Event.isFault
    have hlast : (state.tell event call).count Event.isFault = state.count Event.isFault := by omega
    obtain ⟨hnone, hcount⟩ := faultOf?_eq_none_of_count_eq
      (fun fault => Event.isFault_of_isLoss (hevent fault)) hlast
    refine allSucceed_append.2 ⟨hcalls.allSucceed (by omega), ?_, trivial⟩
    exact hsucceeds.2 ⟨fun hrotates => rotate_of_count_eq hcount hrotates, hnone⟩

theorem Told.flush (htold : opened.Told postings state) {event : IoFault → Event}
    (hevent : ∀ fault, (event fault).isLoss = true) :
    opened.Told postings (state.tell event .flush) := by
  have hspelled : SinkCall.flush.IsSpelled := trivial
  have htell := htold.tell hspelled hevent
  rwa [SinkCall.posting?, Option.toList_none, List.append_nil] at htell

/-- A flush whose fault would be reported, and that none is reported of, leaves nothing held back. -/
theorem held_flush {kind : Event → Bool} {event : IoFault → Event}
    (hevent : ∀ fault, kind (event fault) = true)
    (hcount : (state.tell event .flush).count kind = state.count kind) :
    (state.tell event .flush).sink.stream.held = [] := by
  obtain ⟨hnone, -⟩ := faultOf?_eq_none_of_count_eq hevent hcount
  rw [SinkState.tell, hnone]
  simp only [faultOf?, SinkState.flush, Stream.flush] at hnone
  simp only [call, SinkState.flush, Stream.flush]
  split
  · assumption
  · next hsome =>
    rw [if_neg hsome] at hnone
    cases hwrite : state.files.write state.sink.stream.handle state.sink.stream.held with
    | error fault => simp [hwrite] at hnone
    | ok written => rfl

/-- A sink that holds nothing back and is told nothing stays as it is. -/
theorem Told.quiet_eq (htold : opened.Told [] state) (hheld : opened.sink.stream.held = []) :
    state.quiet = opened.quiet := by
  obtain ⟨-, calls, hcalls⟩ := htold
  have hflush : opened.call .flush = opened := by
    simp only [call, SinkState.flush, Stream.flush, if_pos hheld]
  have hflushes : ∀ call ∈ calls, call = .flush := by
    intro call hmem
    have hsilent : call.posting? = none := List.filterMap_eq_nil_iff.1 hcalls.postings_eq call hmem
    cases call with
    | flush => rfl
    | write origin record => exact absurd hsilent (Option.some_ne_none _)
  rw [← hcalls.quiet_eq]
  clear hcalls
  induction calls with
  | nil => rfl
  | cons call rest induction =>
      rw [run, hflushes call List.mem_cons_self, hflush]
      exact induction fun other hmem => hflushes other (List.mem_cons_of_mem _ hmem)

theorem drop_eq_tell (state : SinkState) :
    state.drop = state.tell (.flushOnDropFailed state.sink.name) .flush := by
  cases hflush : state.flush.2 with
  | none => simp only [drop, SinkState.tell, faultOf?, call, hflush]
  | some fault => simp only [drop, SinkState.tell, faultOf?, call, hflush]

theorem Told.drop (htold : opened.Told postings state) : opened.Told postings state.drop := by
  rw [drop_eq_tell]
  exact htold.flush fun _ => rfl

end SinkState

/-! ## What is left in the files -/

/-- Calls on the sink of a session write postings: the sink is opened in a tree, every line of the calls is
taken, the calls say the postings, and they leave a tree and nothing held back. If no rotation fails and the
sink finds files at its paths, then the files that it discards and those that it leaves are made of what it
found and of a line for each posting, in this order and each in one file. -/
structure SinkOptions.Writes (options : SinkOptions) (format : LogFormat) (postings : List Posting)
    (found left : FileTree) (opened : SinkState) (calls : List SinkCall) : Prop where
  /-- The sink is opened in the tree. -/
  opens : Sink.start options.name options.path format options.maxSize options.maxFiles found =
    (opened.files, .ok opened.sink)
  /-- Every line is taken, and every flush succeeds. -/
  taken : SinkState.AllTaken calls opened
  /-- They say the postings. -/
  postings_eq : calls.filterMap SinkCall.posting? = postings
  /-- They leave the tree. -/
  files_eq : (SinkState.run calls opened).files = left
  /-- They leave nothing held back. -/
  held_eq : (SinkState.run calls opened).sink.stream.held = []
  /-- The lines are divided among the files. -/
  divides : SinkState.AllSucceed calls opened → found.Sound →
    Path.above ∉ Path.split options.path.toList →
      found.HoldsFiles options.path.toList options.maxFiles →
        ∃ volumes : List (List Bytes),
          volumes.map List.flatten = SinkState.discards calls opened ++
            left.logFiles options.path.toList options.maxFiles ∧
          volumes.flatten = found.logFiles options.path.toList options.maxFiles ++
            postings.map (Posting.bytes format options.name)

/-- A session that found a tree and left another has written some postings. -/
def SinkOptions.HasWritten (options : SinkOptions) (format : LogFormat) (postings : List Posting)
    (found left : FileTree) : Prop :=
  ∃ opened calls, options.Writes format postings found left opened calls

/-- A session that found a tree and left another has written some postings, and no rotation failed. -/
def SinkOptions.HasLogged (options : SinkOptions) (format : LogFormat) (postings : List Posting)
    (found left : FileTree) : Prop :=
  ∃ opened calls, options.Writes format postings found left opened calls ∧
    SinkState.AllSucceed calls opened

theorem filterMap_line? {calls : List SinkCall} (hspelled : ∀ call ∈ calls, call.IsSpelled)
    (sink : Sink) :
    calls.filterMap (SinkCall.line? sink) =
      (calls.filterMap SinkCall.posting?).map (Posting.bytes sink.format sink.name) := by
  rw [List.map_filterMap]
  exact List.filterMap_congr fun call hmem => SinkCall.line?_of_isSpelled (hspelled call hmem) sink

namespace SinkState

variable {options : SinkOptions} {format : LogFormat} {found : FileTree} {opened state : SinkState}
  {postings : List Posting} {calls : List SinkCall}

theorem AllSucceed.allTaken (hsucceed : AllSucceed calls opened) : AllTaken calls opened := by
  induction calls generalizing opened with
  | nil => trivial
  | cons call rest induction => exact ⟨hsucceed.1.2, induction hsucceed.2⟩

/-- Calls that lead to a sink with nothing held back have written their postings. -/
theorem Performs.writes (hcalls : opened.Performs calls postings state)
    (hstart : Sink.start options.name options.path format options.maxSize options.maxFiles found =
      (opened.files, .ok opened.sink))
    (htaken : AllTaken calls opened) (hheld : state.sink.stream.held = []) :
    options.Writes format postings found state.files opened calls := by
  obtain ⟨hsink, hfiles⟩ := quiet_eq_iff.1 hcalls.quiet_eq
  have hstream : (run calls opened).sink.stream = state.sink.stream := by
    have hsame := congrArg Sink.stream hsink
    exact hsame
  have hheldRun : (run calls opened).sink.stream.held = [] := by rw [hstream, hheld]
  refine ⟨hstart, htaken, hcalls.postings_eq, hfiles, hheldRun, ?_⟩
  intro hsucceed hsound hdescends hregular
  obtain ⟨hmoored, hlog, -⟩ := Sink.moored_start hsound hdescends hregular hstart opened.events
  obtain ⟨volumes, hfinal, hsettings, -, hpieces⟩ := opened.records_logFiles.run hmoored hsucceed
  obtain ⟨made, target, -, -, hopened⟩ := Sink.start_ok hstart
  have hleft : (run calls opened).logFiles =
      state.files.logFiles options.path.toList options.maxFiles := by
    have hpath : (run calls opened).sink.path = options.path := by
      rw [hsettings.path_eq, hopened]
    have hmaxFiles : (run calls opened).sink.maxFiles = options.maxFiles := by
      rw [hsettings.maxFiles_eq, hopened]
    rw [logFiles, rotatedFiles, active, hpath, hmaxFiles, hfiles, hheldRun, List.append_nil,
      FileTree.logFiles]
  have hlines : calls.filterMap (SinkCall.line? opened.sink) =
      postings.map (Posting.bytes format options.name) := by
    rw [filterMap_line? hcalls.spelled, hcalls.postings_eq, hopened]
  refine ⟨volumes.map Volume.pieces, ?_, ?_⟩
  · rw [List.map_map, ← hleft]
    exact hfinal.contents_eq
  · rw [← List.flatMap_def, hpieces, hlog, hlines, List.flatMap_map]
    simp [Volume.pieces]

theorem Told.hasWritten (htold : opened.Told postings state)
    (hstart : Sink.start options.name options.path format options.maxSize options.maxFiles found =
      (opened.files, .ok opened.sink))
    (hlosses : state.count Event.isLoss = opened.count Event.isLoss)
    (hheld : state.sink.stream.held = []) :
    options.HasWritten format postings found state.files := by
  obtain ⟨-, calls, hcalls⟩ := htold
  exact ⟨opened, calls, hcalls.writes hstart (hcalls.allTaken hlosses) hheld⟩

theorem Told.hasLogged (htold : opened.Told postings state)
    (hstart : Sink.start options.name options.path format options.maxSize options.maxFiles found =
      (opened.files, .ok opened.sink))
    (hfaults : state.count Event.isFault = opened.count Event.isFault)
    (hheld : state.sink.stream.held = []) :
    options.HasLogged format postings found state.files := by
  obtain ⟨-, calls, hcalls⟩ := htold
  have hsucceed := hcalls.allSucceed hfaults
  exact ⟨opened, calls, hcalls.writes hstart hsucceed.allTaken hheld, hsucceed⟩

end SinkState

end LogRelay
