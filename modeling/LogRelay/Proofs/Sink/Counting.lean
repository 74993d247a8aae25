import LogRelay.Proofs.Sink.Accepting
import LogRelay.Proofs.Sink.Rotated
import LogRelay.Proofs.Sink.Unrotated

/-!
# The bytes that a sink counts

A sink on a regular file counts the bytes of one volume: what its file held when it was opened, unless a
rotation began it, and the lines accepted since. The bytes move from what is held back to the file in several
ways, and a rotation may end before it begins a new file, but the file with what is held back behind it always
is the volume. After a flush, or a record that is flushed at once, the file alone is.
-/

namespace LogRelay

theorem Sink.Opened.congr {first second : Sink} (hopened : first.Opened)
    (hsame : first.SameSettings second) : second.Opened := by
  obtain ⟨before, after, opened, hsound, hstart⟩ := hopened
  refine ⟨before, after, opened, hsound, ?_⟩
  rw [hsame.name_eq, hsame.path_eq, hsame.format_eq, hsame.maxSize_eq, hsame.maxFiles_eq]
  exact hstart

/-- A call after which nothing may be held back: a flush, or a record at least as severe as an error. -/
def SinkCall.isUrgent : SinkCall → Bool
  | write _ record => record.severity.reaches .error
  | flush => true

namespace SinkState

/-- Whether a call returns, and without an error. -/
def isDone (state : SinkState) : SinkCall → Bool
  | .write origin record => (state.write origin record).2 = .done
  | .flush => state.flush.2 = none

/-- Whether a call makes the sink begin a new file. -/
def begins (state : SinkState) (call : SinkCall) : Bool :=
  state.rotatesOn call && (state.sink.rotate state.files).fault = none

/-- The volume of the open file after a call. -/
def turn (state : SinkState) (call : SinkCall) (volume : Volume) : Volume :=
  let current := if state.begins call then ⟨none, []⟩ else volume
  (state.accepted? call).elim current current.add

/-- The volume of the open file after some calls. -/
def volumeAfter : List SinkCall → SinkState → Volume → Volume
  | [], _, volume => volume
  | call :: rest, state, volume => volumeAfter rest (state.call call) (state.turn call volume)

/-- A sink with the settings of the first writes at the end of the file at its path, and the file with what
is held back behind it is a volume, whose bytes are counted. -/
structure Counts (first : Sink) (state : SinkState) (file : Nat) (volume : Volume) : Prop where
  /-- The settings stay. -/
  settings : first.SameSettings state.sink
  /-- A regular file is all that can be found at the path. -/
  shelf : state.files.Shelf first.path.toList 0
  /-- The file stands at the path. -/
  file_eq : state.files.row first.path.toList 0 = some file
  /-- The stream writes at the end of the file. -/
  follows : state.sink.stream.Follows state.files file
  /-- The file and what is held back are the volume. -/
  content_eq : state.files.read file ++ state.sink.stream.held = volume.content
  /-- The bytes of the volume are counted. -/
  size_eq : state.sink.size = volume.content.length

variable {first : Sink} {state : SinkState} {file : Nat} {volume : Volume}

/-! ## Steps -/

/-- What is stored in the file, with what is held back then, is the next volume. -/
theorem Counts.store (hcounts : Counts first state file volume) (next : SinkState)
    (hsettings : state.sink.SameSettings next.sink) {disk : Bytes}
    (hfiles : next.files = state.files.store file disk)
    (hfollows : next.sink.stream.Follows (state.files.store file disk) file) {more : Volume}
    (hcontent : disk ++ next.sink.stream.held = more.content)
    (hsize : next.sink.size = more.content.length) : Counts first next file more := by
  have hread : (state.files.store file disk).read file = disk :=
    FileTree.read_store_self hcounts.follows.stored disk
  refine ⟨hcounts.settings.trans hsettings, ?_, ?_, ?_, ?_, hsize⟩
  · rw [hfiles]
    exact hcounts.shelf.store file disk
  · rw [hfiles, FileTree.row_store]
    exact hcounts.file_eq
  · rw [hfiles]
    exact hfollows
  · rw [hfiles, hread, hcontent]

theorem Counts.flush (hcounts : Counts first state file volume) :
    ∃ flushed, state.flush = (flushed, none) ∧ Counts first flushed file volume ∧
      flushed.sink.stream.held = [] := by
  obtain ⟨stream, hflush, hheld, hfollows⟩ := hcounts.follows.flush
  refine ⟨⟨{ state.sink with stream := stream },
    state.files.store file (state.files.read file ++ state.sink.stream.held), state.events⟩, ?_, ?_,
    hheld⟩
  · simp only [SinkState.flush, hflush]
  · refine hcounts.store _ ?_ rfl hfollows ?_ hcounts.size_eq
    · exact ⟨rfl, rfl, rfl, rfl, rfl⟩
    · rw [hheld, List.append_nil, hcounts.content_eq]

theorem Counts.append (hcounts : Counts first state file volume) (line : Bytes) :
    ∃ appended, state.append line = (appended, none) ∧ Counts first appended file (volume.add line) := by
  obtain ⟨stream, disk, happend, hdisk, hfollows⟩ := hcounts.follows.append line
  refine ⟨⟨{ state.sink with stream := stream, size := state.sink.size + line.length },
    state.files.store file disk, state.events⟩, ?_, ?_⟩
  · simp only [SinkState.append, happend]
  · refine hcounts.store _ ?_ rfl hfollows ?_ ?_
    · exact ⟨rfl, rfl, rfl, rfl, rfl⟩
    · rw [hdisk, hcounts.content_eq, Volume.content_add]
    · rw [Volume.content_add, List.length_append, ← hcounts.size_eq]

theorem Counts.rotate_of_fault (hcounts : Counts first state file volume)
    (hdescends : Path.above ∉ Path.split first.path.toList) (hopened : first.Opened) {fault : IoFault}
    (hfault : (state.sink.rotate state.files).fault = some fault) :
    Counts first state.rotate file volume := by
  rw [← hcounts.settings.path_eq] at hdescends
  obtain ⟨flushed, hflush, hflushed, -⟩ := hcounts.flush
  rw [rotate_eq_of_fault hcounts.shelf.sound hdescends (hopened.congr hcounts.settings) hfault, hflush]
  exact ⟨hflushed.settings, hflushed.shelf, hflushed.file_eq, hflushed.follows, hflushed.content_eq,
    hflushed.size_eq⟩

/-- A rotation that succeeds begins an empty volume. -/
theorem Counts.rotate_of_ok (hcounts : Counts first state file volume)
    (hfault : (state.sink.rotate state.files).fault = none) :
    ∃ fresh, Counts first state.rotate fresh ⟨none, []⟩ := by
  obtain ⟨stream, hflush, -, -⟩ := hcounts.follows.flush
  obtain ⟨moved, handle, created, hmoved, hcreate, hrotate⟩ := Sink.rotate_ok hflush hfault
  have hpathEq : state.sink.path = first.path := hcounts.settings.path_eq
  obtain ⟨folder, name, hpath⟩ := hcounts.shelf.endsIn
  have hflushed := hcounts.shelf.store file (state.files.read file ++ state.sink.stream.held)
  have hleaf := ((hcounts.shelf.sound.row_eq_some_iff hpath).1 hcounts.file_eq).2
  rw [← hpathEq] at hpath hleaf hflushed
  have hrearranged :=
    Sink.rearranged_moveAllUp hpath (hflushed.sound.rearranged hpath) hmoved
  obtain ⟨target, rfl, -, hfits, hemptied⟩ := hrearranged.sound.emptied_create hpath hcreate
  obtain ⟨fresh, rfl⟩ : ∃ fresh, target = .file fresh := by
    obtain ⟨-, hfound⟩ | ⟨hnew, -⟩ :=
      Sink.target_cases hflushed.sound hpath hrearranged hemptied hfits
    · have hsame : some (Entry.leaf target) = some (.leaf (.file file)) := hfound.symm.trans hleaf
      exact ⟨file, Entry.leaf.inj (Option.some.inj hsame)⟩
    · exact ⟨_, hnew⟩
  have hfind : created.find? (created.spot state.sink.path.toList) = some (.leaf (.file fresh)) := by
    rw [hemptied.spot_eq]
    exact hemptied.find?_eq
  have hrow : created.row state.sink.path.toList 0 = some fresh :=
    (hemptied.sound.row_eq_some_iff hpath).2 ⟨hfits, hfind⟩
  have hempty : created.read fresh = [] := hemptied.read_eq fresh rfl
  rw [hpathEq] at hrow
  have hshelf : created.Shelf first.path.toList 0 := by
    refine ⟨hemptied.sound, hcounts.shelf.endsIn, fun number hle _ => ?_⟩
    rw [Nat.le_zero.1 hle, hrow]
    rfl
  rw [rotate_eq_of_ok hrotate]
  refine ⟨fresh, hcounts.settings.trans ⟨rfl, rfl, rfl, rfl, rfl⟩, hshelf, hrow,
    ⟨rfl, hemptied.sound.stored _ fresh hfind, .inr ?_⟩, ?_, rfl⟩
  · rw [hempty]
    rfl
  · rw [hempty]
    rfl

/-! ## Calls -/

theorem turn_of_line?_eq_none {call : SinkCall} (hline : call.line? state.sink = none) :
    state.turn call volume = volume := by
  simp [turn, begins, rotatesOn, accepted?, hline]

section Calls

variable (hdescends : Path.above ∉ Path.split first.path.toList) (hopened : first.Opened)
include hdescends hopened

theorem Counts.ready (hcounts : Counts first state file volume) (count : Nat) :
    ∃ ready, Counts first (state.ready count) ready
      (if state.isFull count && (state.sink.rotate state.files).fault = none then ⟨none, []⟩
      else volume) := by
  unfold SinkState.ready
  cases hfull : state.isFull count with
  | false => exact ⟨file, hcounts⟩
  | true =>
      cases hfault : (state.sink.rotate state.files).fault with
      | none => exact hcounts.rotate_of_ok hfault
      | some fault => exact ⟨file, hcounts.rotate_of_fault hdescends hopened hfault⟩

theorem Counts.take (hcounts : Counts first state file volume) {call : SinkCall} {line : Bytes}
    (hline : call.line? state.sink = some line) :
    ∃ appended taken, (state.ready line.length).append line = (appended, none) ∧
      state.accepted? call = some line ∧ Counts first appended taken (state.turn call volume) := by
  obtain ⟨ready, hready⟩ := hcounts.ready hdescends hopened line.length
  obtain ⟨appended, happend, hnext⟩ := hready.append line
  have haccepted : state.accepted? call = some line := by simp [accepted?, hline, happend]
  refine ⟨appended, ready, happend, haccepted, ?_⟩
  have hbegins : state.begins call = (state.isFull line.length &&
      (state.sink.rotate state.files).fault = none) := by rw [begins, rotatesOn, hline]
  rw [turn, haccepted, hbegins]
  exact hnext

theorem Counts.accepted?_eq (hcounts : Counts first state file volume) (call : SinkCall) :
    state.accepted? call = call.line? state.sink := by
  cases hline : call.line? state.sink with
  | none => simp [accepted?, hline]
  | some line =>
      obtain ⟨-, -, -, haccepted, -⟩ := hcounts.take hdescends hopened hline
      exact haccepted

/-- Every call takes its line and succeeds, and after an urgent one that is done nothing is held back. -/
theorem Counts.call (hcounts : Counts first state file volume) (call : SinkCall) :
    (∃ current, Counts first (state.call call) current (state.turn call volume)) ∧
      state.faultOf? call = none ∧
      (call.isUrgent = true → state.isDone call = true →
        (state.call call).sink.stream.held = []) := by
  cases call with
  | flush =>
      obtain ⟨flushed, hflush, hflushed, hheld⟩ := hcounts.flush
      have hcall : state.call .flush = flushed := congrArg Prod.fst hflush
      rw [hcall, turn_of_line?_eq_none rfl]
      exact ⟨⟨file, hflushed⟩, congrArg Prod.snd hflush, fun _ _ => hheld⟩
  | write origin record =>
      have hcases := state.written origin record
      have hcall : state.call (.write origin record) = (state.write origin record).1 := rfl
      simp only [hcall, faultOf?, isDone, SinkCall.isUrgent]
      generalize state.write origin record = result at hcases ⊢
      generalize hline? : state.accepted? (.write origin record) = line? at hcases
      cases hcases with
      | brokeDown hline =>
          rw [turn_of_line?_eq_none hline]
          exact ⟨⟨file, hcounts⟩, rfl, by simp⟩
      | refused hline happend =>
          obtain ⟨appended, taken, hother, -⟩ := hcounts.take hdescends hopened hline
          exact absurd (congrArg Prod.snd (happend.symm.trans hother)) (by simp)
      | taken hline happend hcalm =>
          obtain ⟨appended, taken, hother, -, hnext⟩ := hcounts.take hdescends hopened hline
          obtain ⟨rfl, -⟩ := Prod.mk.inj (happend.symm.trans hother)
          exact ⟨⟨taken, hnext⟩, rfl, by simp [hcalm]⟩
      | flushed hline happend hurgent hflush =>
          obtain ⟨appended, taken, hother, -, hnext⟩ := hcounts.take hdescends hopened hline
          obtain ⟨rfl, -⟩ := Prod.mk.inj (happend.symm.trans hother)
          obtain ⟨flushed, hflushed, hcountsFlushed, hheld⟩ := hnext.flush
          obtain ⟨rfl, -⟩ := Prod.mk.inj (hflush.symm.trans hflushed)
          exact ⟨⟨taken, hcountsFlushed⟩, rfl, fun _ _ => hheld⟩
      | stuck hline happend hurgent hflush =>
          obtain ⟨appended, taken, hother, -, hnext⟩ := hcounts.take hdescends hopened hline
          obtain ⟨rfl, -⟩ := Prod.mk.inj (happend.symm.trans hother)
          obtain ⟨flushed, hflushed, -⟩ := hnext.flush
          exact absurd (congrArg Prod.snd (hflush.symm.trans hflushed)) (by simp)

theorem Counts.run (hcounts : Counts first state file volume) (calls : List SinkCall) :
    ∃ current, Counts first (SinkState.run calls state) current (volumeAfter calls state volume) := by
  induction calls generalizing state file volume with
  | nil => exact ⟨file, hcounts⟩
  | cons call rest induction =>
      obtain ⟨⟨current, hnext⟩, -⟩ := hcounts.call hdescends hopened call
      exact induction hnext

end Calls

end SinkState

namespace Sink

variable {name path : String} {format : LogFormat} {maxSize maxFiles : Nat} {files opened : FileTree}
  {sink : Sink}

theorem counts_start (hsound : files.Sound) (hdescends : Path.above ∉ Path.split path.toList)
    (hfile : files.HoldsFiles path.toList 0)
    (hstart : start name path format maxSize maxFiles files = (opened, .ok sink))
    (events : Array Event) :
    ∃ file, SinkState.Counts sink ⟨sink, opened, events⟩ file ⟨some (files.contentAt path.toList), []⟩ := by
  obtain ⟨hshelf, hlog, file, hzero, rfl⟩ := shelf_start hsound hdescends hfile hstart
  have hcontent : opened.read file = files.contentAt path.toList := by
    rw [← FileTree.contentAt_of_row hzero]
    exact List.singleton_inj.1 hlog
  refine ⟨file, .refl _, hshelf, hzero, ⟨rfl, hshelf.lt_size_of_row hzero, .inl rfl⟩, ?_, ?_⟩
  · change opened.read file ++ [] = _
    simp [hcontent, Volume.content, Volume.pieces]
  · simp [hcontent, Volume.content, Volume.pieces]

end Sink

/-- The size counter is exact and errors are durable. Opened in any sound tree whose file at the path is
regular or absent, and called in any order, with rotations that succeed or fail, the sink has the regular
file at its path open and counts its bytes and those held back, of which there are never more than there is
room for. The file with what is held back behind it is its volume: what was found at the path, unless a
rotation began the file, and all lines accepted since, in order. Every line is accepted, and no call ends
with a fault. After a record as severe as an error, or a flush, that is done nothing is held back. -/
theorem Sink.counter_is_exact {name path : String} {format : LogFormat} {maxSize maxFiles : Nat}
    {files opened : FileTree} {sink : Sink} (hsound : files.Sound)
    (hdescends : Path.above ∉ Path.split path.toList) (hfile : files.HoldsFiles path.toList 0)
    (hstart : Sink.start name path format maxSize maxFiles files = (opened, .ok sink))
    (events : Array Event) (calls : List SinkCall) :
    let state : SinkState := ⟨sink, opened, events⟩
    let final := SinkState.run calls state
    let volume := SinkState.volumeAfter calls state ⟨some (files.contentAt path.toList), []⟩
    ∃ file, final.sink.stream.handle.target = .file file ∧
      final.files.fileAt? path.toList = some file ∧
      final.sink.size = (final.files.read file).length + final.sink.stream.held.length ∧
      final.sink.stream.held.length ≤ Stream.capacity ∧
      final.files.read file ++ final.sink.stream.held = volume.content ∧
      (∀ call, final.accepted? call = call.line? sink ∧ final.faultOf? call = none) ∧
      ∀ front last, calls = front ++ [last] → last.isUrgent = true →
        (SinkState.run front state).isDone last = true →
          final.sink.stream.held = [] ∧ final.files.read file = volume.content := by
  intro state final volume
  obtain ⟨start, hopened⟩ := Sink.counts_start hsound hdescends hfile hstart events
  have hbefore : sink.Opened ∧ sink.path = path ∧ sink.stream.held = [] := by
    obtain ⟨made, target, -, -, rfl⟩ := Sink.start_ok hstart
    exact ⟨⟨files, opened, _, hsound, hstart⟩, rfl, rfl⟩
  obtain ⟨hbefore, rfl, hheld⟩ := hbefore
  obtain ⟨file, hcounts⟩ := hopened.run hdescends hbefore calls
  refine ⟨file, hcounts.follows.target_eq, hcounts.file_eq, ?_, ?_, hcounts.content_eq, ?_, ?_⟩
  · rw [hcounts.size_eq, ← List.length_append, hcounts.content_eq]
  · exact SinkState.length_held_run_le (by rw [hheld]; exact Nat.zero_le _) calls
  · intro call
    refine ⟨?_, (hcounts.call hdescends hbefore call).2.1⟩
    rw [hcounts.accepted?_eq hdescends hbefore, SinkCall.line?_congr hcounts.settings]
  · rintro front last rfl hurgent hdone
    obtain ⟨current, hfront⟩ := hopened.run hdescends hbefore front
    have hempty : final.sink.stream.held = [] := by
      change (SinkState.run (front ++ [last]) state).sink.stream.held = []
      rw [SinkState.run_append]
      exact (hfront.call hdescends hbefore last).2.2 hurgent hdone
    refine ⟨hempty, ?_⟩
    rw [← hcounts.content_eq, hempty, List.append_nil]

/-- The initial tree with a directory where the second rotated file would go. -/
def FileTree.walled : FileTree :=
  FileTree.initial.insert ["home".toList, "app.2.log".toList] .directory

theorem FileTree.sound_walled : FileTree.walled.Sound :=
  FileTree.sound_initial.insert_directory (by decide) (by decide)

theorem FileTree.holdsFiles_walled : FileTree.walled.HoldsFiles "app.log".toList 0 := by
  intro number hle hpresent
  obtain rfl := Nat.le_zero.1 hle
  have habsent : FileTree.walled.present (Path.numbered "app.log".toList 0) = false := by decide
  exact absurd (hpresent.symm.trans habsent) (by decide)

/-- That tree with the empty file of the sink. -/
def FileTree.walledLog : FileTree :=
  { FileTree.walled with
    entries := (["home".toList, "app.log".toList], .leaf (.file 0)) :: FileTree.walled.entries
    contents := #[[]] }

/-- The small sink, with one rotated file more. -/
def Sink.keepingTwo : Sink := { Sink.small with maxFiles := 2 }

theorem Sink.start_keepingTwo : Sink.start "app" "app.log" .text 60 2 FileTree.walled =
    (FileTree.walledLog, .ok Sink.keepingTwo) := rfl

/-- The first rotation begins a file, and the directory stops the second and the third. The file goes on
after them, and the error brings all three lines to it. -/
theorem Sink.walled_counts_threeLines :
    let state : SinkState := ⟨Sink.keepingTwo, FileTree.walledLog, #[]⟩
    let last : SinkCall := .write ⟨1, 1⟩ ⟨.error, "four", ⟨0⟩⟩
    let final := SinkState.run (SinkCall.threeLines ++ [last]) state
    let line := fun text : String => Utf8.bytes ("[1970-01-01 00:00:00.000] " ++ text ++ "\n")
    ∃ file, final.files.fileAt? "app.log".toList = some file ∧
      final.files.read file =
        [line "[error] two", line "[info] three", line "[error] four"].flatten ∧
      final.sink.size = (final.files.read file).length ∧ final.sink.stream.held = [] := by
  intro state last final line
  have hvolume : (SinkState.volumeAfter (SinkCall.threeLines ++ [last]) state
      ⟨some (FileTree.walled.contentAt "app.log".toList), []⟩).content =
        [line "[error] two", line "[info] three", line "[error] four"].flatten := by decide +kernel
  have hdone : (SinkState.run SinkCall.threeLines state).isDone last = true := by decide +kernel
  obtain ⟨file, -, hfile, hsize, -, -, -, hdurable⟩ := Sink.counter_is_exact FileTree.sound_walled
    (by decide) FileTree.holdsFiles_walled Sink.start_keepingTwo #[] (SinkCall.threeLines ++ [last])
  obtain ⟨hheld, hcontent⟩ := hdurable SinkCall.threeLines last rfl (by decide) hdone
  rw [hheld, List.length_nil, Nat.add_zero] at hsize
  with_reducible exact ⟨file, hfile, hcontent.trans hvolume, hsize, hheld⟩

end LogRelay
