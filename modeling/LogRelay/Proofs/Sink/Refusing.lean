import LogRelay.Proofs.Sink.Accepting
import LogRelay.Proofs.Sink.Partition

/-!
# Sinks whose writes are all refused

A device that refuses every write leaves a sink with what it can hold back. The bytes held back are the
lines accepted so far, each of them whole, and they are what the sink counts. So a sink that would rotate
has something to flush first; the flush is refused, and the rotation ends before it touches a path.
-/

namespace LogRelay

/-- Nothing can be written to an open file. -/
def FileTree.Refuses (tree : FileTree) (handle : Handle) : Prop :=
  ∀ bytes, bytes ≠ [] → ∃ fault, tree.write handle bytes = .error fault

theorem FileTree.refuses_full (tree : FileTree) (position : Option Nat) :
    tree.Refuses ⟨.device .full, position⟩ := by
  intro bytes hbytes
  exact ⟨.system .noSpace, by simp [write, hbytes, fail]⟩

namespace Stream

variable {stream : Stream} {files : FileTree}

/-- There is room for some bytes behind those held back, and they are not written past them. -/
def HasRoom (stream : Stream) (bytes : Bytes) : Prop :=
  stream.held.length + bytes.length ≤ capacity ∧ bytes.length < capacity

instance (stream : Stream) (bytes : Bytes) : Decidable (stream.HasRoom bytes) :=
  inferInstanceAs (Decidable (_ ∧ _))

theorem flush_of_refuses (hrefuses : files.Refuses stream.handle) (hheld : stream.held ≠ []) :
    ∃ fault, stream.flush files = ⟨stream, files, some fault⟩ := by
  obtain ⟨fault, hwrite⟩ := hrefuses stream.held hheld
  exact ⟨fault, by simp [flush, hheld, hwrite]⟩

/-- Bytes are taken as a whole if there is room for them, and otherwise refused as a whole. -/
theorem append_of_refuses (hrefuses : files.Refuses stream.handle) {bytes : Bytes} (hbytes : bytes ≠ []) :
    ∃ fault, stream.append files bytes =
      if stream.HasRoom bytes then ⟨{ stream with held := stream.held ++ bytes }, files, none⟩
      else ⟨stream, files, some fault⟩ := by
  obtain ⟨fault, hwrite⟩ := hrefuses bytes hbytes
  have haccept : stream.accept files bytes =
      if bytes.length < capacity then ⟨{ stream with held := stream.held ++ bytes }, files, none⟩
      else ⟨stream, files, some fault⟩ := by
    by_cases hsmall : bytes.length < capacity
    · rw [accept, if_pos hsmall, if_neg (Nat.not_le_of_lt hsmall)]
    · rw [accept, if_neg hsmall, if_pos (Nat.le_of_not_lt hsmall)]
      simp only [hwrite]
  by_cases hfits : stream.held.length + bytes.length ≤ capacity
  · refine ⟨fault, ?_⟩
    rw [append, if_neg (Nat.not_lt_of_le hfits), haccept]
    simp only [HasRoom, hfits, true_and]
  · have hroom : ¬stream.HasRoom bytes := fun hroom => hfits hroom.1
    by_cases hheld : stream.held = []
    · have hlarge : ¬bytes.length < capacity := by
        rw [hheld, List.length_nil] at hfits
        omega
      refine ⟨fault, ?_⟩
      rw [append, if_pos (Nat.lt_of_not_le hfits), flush, if_pos hheld]
      simp only [haccept, if_neg hlarge, if_neg hroom]
    · obtain ⟨stuck, hflush⟩ := flush_of_refuses hrefuses hheld
      refine ⟨stuck, ?_⟩
      simp only [append, if_pos (Nat.lt_of_not_le hfits), hflush, if_neg hroom]

end Stream

theorem Sink.rotate_of_refuses {sink : Sink} {files : FileTree}
    (hrefuses : files.Refuses sink.stream.handle) (hheld : sink.stream.held ≠ []) :
    ∃ fault, (sink.stream.flush files).fault = some fault ∧
      sink.rotate files = ⟨sink, files, some fault⟩ := by
  obtain ⟨fault, hflush⟩ := Stream.flush_of_refuses hrefuses hheld
  exact ⟨fault, by rw [hflush], by simp [rotate, hflush]⟩

namespace SinkState

/-- The lines that some calls get accepted. -/
def acceptedLines : List SinkCall → SinkState → List Bytes
  | [], _ => []
  | call :: rest, state => (state.accepted? call).toList ++ acceptedLines rest (state.call call)

/-- What has become of an opened sink whose writes are all refused and that has accepted some lines. -/
structure Stalls (opened : SinkState) (lines : List Bytes) (state : SinkState) : Prop where
  /-- The tree is as it was. -/
  files_eq : state.files = opened.files
  /-- The same file is open. -/
  handle_eq : state.sink.stream.handle = opened.sink.stream.handle
  /-- The settings stay. -/
  settings : opened.sink.SameSettings state.sink
  /-- The lines are held back, each of them whole. -/
  held_eq : state.sink.stream.held = lines.flatten
  /-- They are what is counted. -/
  size_eq : state.sink.size = lines.flatten.length

variable {opened state next : SinkState} {lines : List Bytes}

theorem stalls_start {name path : String} {format : LogFormat} {maxSize maxFiles : Nat}
    {files tree : FileTree} {sink : Sink}
    (hstart : Sink.start name path format maxSize maxFiles files = (tree, .ok sink))
    (hempty : tree.size sink.stream.handle = 0) (events : Array Event) :
    let opened : SinkState := ⟨sink, tree, events⟩
    opened.Stalls [] opened := by
  intro opened
  obtain ⟨made, target, -, -, rfl⟩ := Sink.start_ok hstart
  exact ⟨rfl, rfl, .refl _, rfl, hempty⟩

theorem Stalls.congr (hstalls : opened.Stalls lines state) (hsink : next.sink = state.sink)
    (hfiles : next.files = state.files) : opened.Stalls lines next := by
  refine ⟨hfiles.trans hstalls.files_eq, ?_, ?_, ?_, ?_⟩
  · rw [hsink, hstalls.handle_eq]
  · exact hsink ▸ hstalls.settings
  · rw [hsink, hstalls.held_eq]
  · rw [hsink, hstalls.size_eq]

variable (hrefuses : opened.files.Refuses opened.sink.stream.handle)
include hrefuses

theorem Stalls.refuses (hstalls : opened.Stalls lines state) :
    state.files.Refuses state.sink.stream.handle := by
  rw [hstalls.files_eq, hstalls.handle_eq]
  exact hrefuses

theorem Stalls.flush (hstalls : opened.Stalls lines state) :
    state.flush.1 = state ∧ (state.sink.stream.held ≠ [] → ∃ fault, state.flush.2 = some fault) := by
  by_cases hheld : state.sink.stream.held = []
  · exact ⟨by simp [SinkState.flush, Stream.flush, hheld], fun hne => absurd hheld hne⟩
  · obtain ⟨fault, hflush⟩ := Stream.flush_of_refuses (hstalls.refuses hrefuses) hheld
    exact ⟨by simp [SinkState.flush, hflush], fun _ => ⟨fault, by simp [SinkState.flush, hflush]⟩⟩

theorem Stalls.rotate_of_full (hstalls : opened.Stalls lines state) {count : Nat}
    (hfull : state.isFull count = true) :
    ∃ fault, (state.sink.stream.flush state.files).fault = some fault ∧
      state.sink.rotate state.files = ⟨state.sink, state.files, some fault⟩ := by
  apply Sink.rotate_of_refuses (hstalls.refuses hrefuses)
  simp only [isFull, Bool.and_eq_true, decide_eq_true_eq] at hfull
  rw [hstalls.held_eq, ← List.length_pos_iff, ← hstalls.size_eq]
  exact hfull.1

theorem Stalls.rotate_of_rotatesOn (hstalls : opened.Stalls lines state) {call : SinkCall}
    (hrotates : state.rotatesOn call = true) :
    ∃ fault, (state.sink.stream.flush state.files).fault = some fault ∧
      state.sink.rotate state.files = ⟨state.sink, state.files, some fault⟩ := by
  unfold SinkState.rotatesOn at hrotates
  split at hrotates
  · exact hstalls.rotate_of_full hrefuses hrotates
  · exact absurd hrotates Bool.false_ne_true

theorem Stalls.ready (hstalls : opened.Stalls lines state) (count : Nat) :
    (state.ready count).sink = state.sink ∧ (state.ready count).files = state.files := by
  unfold SinkState.ready
  split
  · next hfull =>
    obtain ⟨fault, -, hrotate⟩ := hstalls.rotate_of_full hrefuses hfull
    simp only [SinkState.rotate, hrotate]
    exact ⟨rfl, rfl⟩
  · exact ⟨rfl, rfl⟩

/-- A line is held back and counted if there is room for it, and otherwise changes nothing. -/
theorem Stalls.append (hstalls : opened.Stalls lines state) {line : Bytes} (hline : line ≠ []) :
    if state.sink.stream.HasRoom line then
      ∃ appended, (state.ready line.length).append line = (appended, none) ∧
        opened.Stalls (lines ++ [line]) appended
    else
      ∃ appended fault, (state.ready line.length).append line = (appended, some fault) ∧
        appended.sink = state.sink ∧ appended.files = state.files := by
  obtain ⟨hsink, hfiles⟩ := hstalls.ready hrefuses line.length
  obtain ⟨fault, happend⟩ := Stream.append_of_refuses (hstalls.refuses hrefuses) hline
  simp only [SinkState.append, hsink, hfiles, happend]
  split
  · refine ⟨_, rfl, hstalls.files_eq, hstalls.handle_eq, ?_, ?_, ?_⟩
    · exact hstalls.settings.trans ⟨rfl, rfl, rfl, rfl, rfl⟩
    · rw [List.flatten_append, List.flatten_singleton, hstalls.held_eq]
    · rw [List.flatten_append, List.flatten_singleton, List.length_append, hstalls.size_eq]
  · exact ⟨_, fault, rfl, rfl, rfl⟩

/-- Exactly the lines that there is room for are accepted. -/
theorem Stalls.accepted?_eq (hstalls : opened.Stalls lines state) (call : SinkCall) :
    state.accepted? call =
      (call.line? state.sink).filter fun line => state.sink.stream.HasRoom line := by
  rw [accepted?]
  cases hline : call.line? state.sink with
  | none => rfl
  | some line =>
      have happend := hstalls.append hrefuses (SinkCall.line_ne_nil hline)
      simp only [Option.filter_some]
      split at happend
      · next hroom =>
        obtain ⟨appended, happend, -⟩ := happend
        simp [happend, hroom]
      · next hroom =>
        obtain ⟨appended, fault, happend, -⟩ := happend
        simp [happend, hroom]

theorem Stalls.of_append (hstalls : opened.Stalls lines state) {line : Bytes} (hline : line ≠ [])
    {appended : SinkState} (happend : (state.ready line.length).append line = (appended, none)) :
    opened.Stalls (lines ++ [line]) appended := by
  have hcases := hstalls.append hrefuses hline
  split at hcases
  · obtain ⟨other, hother, hnext⟩ := hcases
    obtain ⟨rfl, -⟩ := Prod.mk.inj (happend.symm.trans hother)
    exact hnext
  · obtain ⟨other, fault, hother, -⟩ := hcases
    exact absurd (congrArg Prod.snd (happend.symm.trans hother)) (by simp)

theorem Stalls.of_not_append (hstalls : opened.Stalls lines state) {line : Bytes} (hline : line ≠ [])
    {appended : SinkState} {fault : IoFault}
    (happend : (state.ready line.length).append line = (appended, some fault)) :
    appended.sink = state.sink ∧ appended.files = state.files := by
  have hcases := hstalls.append hrefuses hline
  split at hcases
  · obtain ⟨other, hother, -⟩ := hcases
    exact absurd (congrArg Prod.snd (happend.symm.trans hother)) (by simp)
  · obtain ⟨other, fault', hother, hsame⟩ := hcases
    obtain ⟨rfl, -⟩ := Prod.mk.inj (happend.symm.trans hother)
    exact hsame

theorem Stalls.flush_of_append (hstalls : opened.Stalls lines state) {line : Bytes} (hline : line ≠ [])
    {appended : SinkState} (happend : (state.ready line.length).append line = (appended, none)) :
    ∃ fault, appended.flush = (appended, some fault) := by
  have hnext := hstalls.of_append hrefuses hline happend
  obtain ⟨hflushed, hfault⟩ := hnext.flush hrefuses
  have hheld : appended.sink.stream.held ≠ [] := by
    rw [hnext.held_eq, List.flatten_append, List.flatten_singleton]
    exact List.append_ne_nil_of_right_ne_nil _ hline
  obtain ⟨fault, hfault⟩ := hfault hheld
  exact ⟨fault, Prod.ext hflushed hfault⟩

/-- A record is held back or changes nothing, and the answer is good only if it is held back and need not be
flushed. -/
theorem Stalls.write (hstalls : opened.Stalls lines state) (origin : Origin) (record : Record) :
    let accepted := state.accepted? (.write origin record)
    let written := state.write origin record
    opened.Stalls (lines ++ accepted.toList) written.1 ∧
      (accepted = none → written.1.sink = state.sink) ∧
      (written.2 = .done ↔ accepted.isSome = true ∧ record.severity.reaches .error = false) := by
  intro accepted written
  have hcases : state.Written origin record accepted written := state.written origin record
  generalize accepted = line? at hcases ⊢
  generalize written = result at hcases ⊢
  cases hcases with
  | brokeDown hline =>
      rw [Option.toList_none, List.append_nil]
      exact ⟨hstalls, fun _ => rfl, by simp⟩
  | refused hline happend =>
      obtain ⟨hsink, hfiles⟩ := hstalls.of_not_append hrefuses (SinkCall.line_ne_nil hline) happend
      rw [Option.toList_none, List.append_nil]
      exact ⟨hstalls.congr hsink hfiles, fun _ => hsink, by simp⟩
  | taken hline happend hcalm =>
      have hnext := hstalls.of_append hrefuses (SinkCall.line_ne_nil hline) happend
      exact ⟨hnext, by simp, by simp [hcalm]⟩
  | flushed hline happend hurgent hflush =>
      obtain ⟨fault, hfault⟩ :=
        hstalls.flush_of_append hrefuses (SinkCall.line_ne_nil hline) happend
      exact absurd (congrArg Prod.snd (hflush.symm.trans hfault)) (by simp)
  | stuck hline happend hurgent hflush =>
      have hnext := hstalls.of_append hrefuses (SinkCall.line_ne_nil hline) happend
      obtain ⟨fault, hfault⟩ :=
        hstalls.flush_of_append hrefuses (SinkCall.line_ne_nil hline) happend
      obtain ⟨rfl, -⟩ := Prod.mk.inj (hfault.symm.trans hflush)
      exact ⟨hnext, by simp, by simp [hurgent]⟩

theorem Stalls.call (hstalls : opened.Stalls lines state) (call : SinkCall) :
    opened.Stalls (lines ++ (state.accepted? call).toList) (state.call call) ∧
      (state.accepted? call = none → (state.call call).sink = state.sink) := by
  cases call with
  | flush =>
      have hflush : state.call .flush = state := (hstalls.flush hrefuses).1
      rw [hflush]
      exact ⟨by simpa [accepted?, SinkCall.line?] using hstalls, fun _ => rfl⟩
  | write origin record =>
      obtain ⟨hnext, hsame, -⟩ := hstalls.write hrefuses origin record
      exact ⟨hnext, hsame⟩

theorem Stalls.run (hstalls : opened.Stalls lines state) (calls : List SinkCall) :
    opened.Stalls (lines ++ acceptedLines calls state) (SinkState.run calls state) := by
  induction calls generalizing state lines with
  | nil =>
      rw [acceptedLines, List.append_nil]
      exact hstalls
  | cons call rest induction =>
      have hrest := induction (hstalls.call hrefuses call).1
      rw [List.append_assoc] at hrest
      exact hrest

end SinkState

/-- A sink stays consistent when every write is refused. Opened on a file of length zero that refuses every
write, and called in any order with records of any kind, the sink holds back exactly the lines it has
accepted, in order and each of them whole, no more than there is room for, and counts their bytes. A line is
accepted exactly when there is room for it; a call without an accepted line changes nothing about the sink. A
write is answered well exactly when its line is accepted and it is less severe than an error. A rotation is
never tried without something to flush, and ends with that flush: the whole tree stays as it was opened. -/
theorem Sink.refused_sink_keeps_accepted {name path : String} {format : LogFormat}
    {maxSize maxFiles : Nat} {files opened : FileTree} {sink : Sink}
    (hstart : Sink.start name path format maxSize maxFiles files = (opened, .ok sink))
    (hrefuses : opened.Refuses sink.stream.handle) (hempty : opened.size sink.stream.handle = 0)
    (events : Array Event) (calls : List SinkCall) :
    let state : SinkState := ⟨sink, opened, events⟩
    let final := SinkState.run calls state
    let lines := SinkState.acceptedLines calls state
    final.sink.stream.held = lines.flatten ∧
      final.sink.stream.held.length ≤ Stream.capacity ∧
      final.sink.size = final.sink.stream.held.length ∧
      final.sink.stream.handle = sink.stream.handle ∧ final.files = opened ∧
      ∀ call : SinkCall,
        final.accepted? call =
            (call.line? sink).filter (fun line => final.sink.stream.HasRoom line) ∧
          (final.accepted? call = none → (final.call call).sink = final.sink) ∧
          (∀ origin record, call = .write origin record →
            ((final.write origin record).2 = .done ↔
              (final.accepted? call).isSome = true ∧ record.severity.reaches .error = false)) ∧
          (final.rotatesOn call = true →
            ∃ fault, (final.sink.stream.flush final.files).fault = some fault ∧
              final.sink.rotate final.files = ⟨final.sink, opened, some fault⟩) := by
  intro state final lines
  have hopened : state.Stalls [] state := SinkState.stalls_start hstart hempty events
  have hstalls : state.Stalls lines final := hopened.run hrefuses calls
  refine ⟨hstalls.held_eq, ?_, ?_, hstalls.handle_eq, hstalls.files_eq, ?_⟩
  · exact SinkState.length_held_run_le (by rw [hopened.held_eq]; exact Nat.zero_le _) calls
  · rw [hstalls.size_eq, hstalls.held_eq]
  · intro call
    refine ⟨?_, (hstalls.call hrefuses call).2, ?_, ?_⟩
    · rw [hstalls.accepted?_eq hrefuses, SinkCall.line?_congr hstalls.settings]
    · rintro origin record rfl
      exact (hstalls.write hrefuses origin record).2.2
    · intro hrotates
      obtain ⟨fault, hflush, hrotate⟩ := hstalls.rotate_of_rotatesOn hrefuses hrotates
      exact ⟨fault, hflush, hrotate.trans (by rw [hstalls.files_eq])⟩

/-- The small sink on the device that is always full. -/
def Sink.onFullDevice : Sink :=
  ⟨"app", "/dev/full", .text, 60, 1, .debug, .ofHandle ⟨.device .full, none⟩, 0⟩

theorem Sink.start_onFullDevice : Sink.start "app" "/dev/full" .text 60 1 FileTree.initial =
    (FileTree.initial, .ok Sink.onFullDevice) := rfl

/-- All three lines are held back, two rotations having ended with their flush. The next one does too, and a
further line is accepted, but as an error it is answered with a fault. -/
theorem Sink.fullDevice_keeps_threeLines :
    let state : SinkState := ⟨Sink.onFullDevice, FileTree.initial, #[]⟩
    let final := SinkState.run SinkCall.threeLines state
    let line := fun text : String => Utf8.bytes ("[1970-01-01 00:00:00.000] " ++ text ++ "\n")
    let last : SinkCall := .write ⟨1, 1⟩ ⟨.error, "four", ⟨0⟩⟩
    final.sink.stream.held =
        [line "[info] one", line "[error] two", line "[info] three"].flatten ∧
      final.sink.size = final.sink.stream.held.length ∧ final.files = FileTree.initial ∧
      final.accepted? last = some (line "[error] four") ∧ final.rotatesOn last = true ∧
      (∃ fault, final.sink.rotate final.files = ⟨final.sink, FileTree.initial, some fault⟩) ∧
      (final.write ⟨1, 1⟩ ⟨.error, "four", ⟨0⟩⟩).2 ≠ .done := by
  intro state final line last
  have hlines : SinkState.acceptedLines SinkCall.threeLines state =
      [line "[info] one", line "[error] two", line "[info] three"] := by decide +kernel
  have hlast : final.accepted? last = some (line "[error] four") := by decide +kernel
  have hrotates : final.rotatesOn last = true := by decide +kernel
  obtain ⟨hheld, -, hsize, -, hfiles, hcall⟩ := Sink.refused_sink_keeps_accepted
    Sink.start_onFullDevice (FileTree.refuses_full _ _) rfl #[] SinkCall.threeLines
  obtain ⟨-, -, hanswer, hrotation⟩ := hcall last
  obtain ⟨fault, -, hrotate⟩ := hrotation hrotates
  with_reducible refine ⟨hheld.trans (congrArg List.flatten hlines), hsize, hfiles, hlast, hrotates,
    ⟨fault, hrotate⟩, fun hdone => ?_⟩
  exact absurd ((hanswer _ _ rfl).1 hdone).2 (by decide)

end LogRelay
