import LogRelay.Proofs.Sink.Partition

/-!
# Rotations that fail

A rotation that fails leaves the tree as the flush before it left it. The first thing that moves shows that
the system accepts all paths with smaller numbers and that their directory is there; each move makes room
for the next, and the last for the file that is opened at the end. So only the first step that would change
something can fail. The sink goes on with the file it has, and the next line follows the bytes taken before.
-/

namespace LogRelay

namespace Sink

open FileTree

variable {sink : Sink} {tree : FileTree} {folder : List Path.Segment} {name : Path.Segment}

/-! ## All or nothing -/

/-- Below a vacant slot nothing is refused any more. -/
theorem moveAllUp_of_vacant (hsound : tree.Sound) (hpath : Path.EndsIn sink.path.toList folder name)
    (hbase : Fits sink.path.toList) {number : Nat}
    (hvacant : tree.Vacant (Path.numbered sink.path.toList number)) :
    ∃ moved, sink.moveAllUp number tree = (moved, none) ∧ moved.Sound ∧
      moved.Vacant sink.path.toList := by
  induction number generalizing tree with
  | zero => exact ⟨tree, rfl, hsound, hvacant⟩
  | succ number induction =>
      rw [moveAllUp]
      obtain ⟨habsent, hmove⟩ | ⟨-, hclosed, -⟩ | ⟨hpresent, hopen, hmove⟩ :=
        sink.moveUp_cases hsound hpath number
      · rw [hmove]
        have hdirectory := hvacant.directory
        rw [tree.dropLast_spot_numbered hpath] at hdirectory
        exact induction hsound (hsound.vacant_of_not_present hpath
          (Fits.numbered_of_succ hpath hbase hvacant.fits) hdirectory habsent)
      · exact absurd hvacant.toOpen hclosed
      · rw [hmove]
        exact induction (hsound.move_slot hpath hpresent hopen)
          (hsound.vacant_move_slot hpath hpresent hopen)

/-- Moving up either changes nothing or succeeds and makes room at the path. -/
theorem moveAllUp_cases (hsound : tree.Sound) (hpath : Path.EndsIn sink.path.toList folder name)
    (hbase : Fits sink.path.toList) (number : Nat) :
    (sink.moveAllUp number tree).1 = tree ∨
      ∃ moved, sink.moveAllUp number tree = (moved, none) ∧ moved.Sound ∧
        moved.Vacant sink.path.toList := by
  induction number with
  | zero => exact .inl rfl
  | succ number induction =>
      rw [moveAllUp]
      obtain ⟨-, hmove⟩ | ⟨-, -, fault, hmove⟩ | ⟨hpresent, hopen, hmove⟩ :=
        sink.moveUp_cases hsound hpath number
      · rw [hmove]
        exact induction
      · rw [hmove]
        exact .inl rfl
      · rw [hmove]
        exact .inr (moveAllUp_of_vacant (hsound.move_slot hpath hpresent hopen) hpath hbase
          (hsound.vacant_move_slot hpath hpresent hopen))

theorem create_of_vacant (hsound : tree.Sound) {path : List Char} (hpath : Path.EndsIn path folder name)
    (hvacant : tree.Vacant path) : ∃ created, tree.create path = .ok created := by
  have hlocate := hsound.locate_eq hpath hvacant.fits hvacant.directory
  simp [FileTree.create, openTarget, hlocate, hvacant.find?_eq, Except.map]

/-- The settings of the sink are those of a sink that has opened its file before, in some tree. -/
def Opened (sink : Sink) : Prop :=
  ∃ before after opened, FileTree.Sound before ∧
    start sink.name sink.path sink.format sink.maxSize sink.maxFiles before = (after, .ok opened)

theorem Opened.fits (hopened : sink.Opened) (hdescends : Path.above ∉ Path.split sink.path.toList) :
    ∃ folder name, Path.EndsIn sink.path.toList folder name ∧ Fits sink.path.toList := by
  obtain ⟨before, after, opened, hsound, hstart⟩ := hopened
  obtain ⟨made, target, hmade, hopen, -⟩ := start_ok hstart
  obtain ⟨folder, name, hpath⟩ := endsIn_of_openTarget hdescends hopen
  exact ⟨folder, name, hpath, ((extends_of_made hsound hpath hmade).sound.openTarget_cases hpath hopen).1⟩

/-- A rotation that fails leaves the tree and the sink as the flush before it left them. -/
theorem rotate_of_fault {files : FileTree} (hsound : files.Sound)
    (hdescends : Path.above ∉ Path.split sink.path.toList) (hopened : sink.Opened) {fault : IoFault}
    (hfault : (sink.rotate files).fault = some fault) :
    (sink.rotate files).files = (sink.stream.flush files).files ∧
      (sink.rotate files).state = { sink with stream := (sink.stream.flush files).state } := by
  obtain ⟨folder, name, hpath, hbase⟩ := hopened.fits hdescends
  obtain ⟨hflushed, -⟩ := hsound.flush sink.stream
  unfold rotate at hfault ⊢
  generalize sink.stream.flush files = flushed at *
  obtain ⟨stream, tree, flushFault⟩ := flushed
  cases flushFault with
  | some flushFault => exact ⟨rfl, rfl⟩
  | none =>
      simp only at hfault ⊢
      rcases moveAllUp_cases hflushed hpath hbase sink.maxFiles with hkept | ⟨moved, hmoved, hready, hvacant⟩
      · cases hmove : (sink.moveAllUp sink.maxFiles tree).2 with
        | some moveFault => exact ⟨hkept, rfl⟩
        | none =>
            simp only [hmove] at hfault ⊢
            split at hfault
            · exact ⟨hkept, rfl⟩
            · exact absurd hfault (by simp)
      · obtain ⟨created, hcreate⟩ := create_of_vacant hready hpath hvacant
        simp [hmoved, hcreate] at hfault

end Sink

namespace SinkState

/-- What a sink that takes some bytes for a file comes to. -/
structure Takes (before : SinkState) (file : Nat) (bytes : Bytes) (after : SinkState) : Prop where
  /-- Its settings stay. -/
  settings : before.sink.SameSettings after.sink
  /-- The same file is open. -/
  writesTo : after.sink.stream.WritesTo after.files file
  /-- Only its contents have changed. -/
  files_eq : ∃ disk, after.files = before.files.store file disk
  /-- The bytes follow those taken before. -/
  taken_eq : after.sink.stream.taken after.files file =
    before.sink.stream.taken before.files file ++ bytes
  /-- They are counted. -/
  size_eq : after.sink.size = before.sink.size + bytes.length

variable {state before middle after : SinkState} {file : Nat} {bytes more : Bytes}

theorem Takes.refl (hwrites : state.sink.stream.WritesTo state.files file) :
    state.Takes file [] state :=
  ⟨.refl _, hwrites, ⟨_, (state.files.store_read file).symm⟩, (List.append_nil _).symm, rfl⟩

theorem Takes.trans (hfirst : before.Takes file bytes middle) (hsecond : middle.Takes file more after) :
    before.Takes file (bytes ++ more) after := by
  obtain ⟨disk, hdisk⟩ := hfirst.files_eq
  obtain ⟨disk', hdisk'⟩ := hsecond.files_eq
  refine ⟨hfirst.settings.trans hsecond.settings, hsecond.writesTo, ⟨disk', ?_⟩, ?_, ?_⟩
  · rw [hdisk', hdisk, FileTree.store_store]
  · rw [hsecond.taken_eq, hfirst.taken_eq, List.append_assoc]
  · rw [hsecond.size_eq, hfirst.size_eq, List.length_append, Nat.add_assoc]

theorem takes_flush (hwrites : state.sink.stream.WritesTo state.files file) :
    ∃ flushed, state.flush = (flushed, none) ∧ state.Takes file [] flushed := by
  have hflush := hwrites.flush
  refine ⟨state.flush.1, ?_, ⟨rfl, rfl, rfl, rfl, rfl⟩, hflush.writesTo, hflush.files_eq,
    hflush.taken_eq, rfl⟩
  rw [← hflush.fault_eq]
  rfl

theorem takes_append (hwrites : state.sink.stream.WritesTo state.files file) (bytes : Bytes) :
    ∃ appended, state.append bytes = (appended, none) ∧ state.Takes file bytes appended := by
  have happend := hwrites.append bytes
  simp only [SinkState.append, happend.fault_eq]
  exact ⟨_, rfl, ⟨rfl, rfl, rfl, rfl, rfl⟩, happend.writesTo, happend.files_eq, happend.taken_eq, rfl⟩

theorem takes_writeLine (severity : Severity) {line : Bytes}
    (hready : state.Takes file [] (if state.isFull line.length then state.rotate else state)) :
    ∃ written, writeLine severity line state = (written, none) ∧ state.Takes file line written := by
  obtain ⟨appended, happend, htakes⟩ := takes_append hready.writesTo line
  have hafter := hready.trans htakes
  simp only [writeLine, happend]
  split
  · obtain ⟨flushed, hflush, hflushed⟩ := takes_flush hafter.writesTo
    have hall := hafter.trans hflushed
    rw [List.nil_append, List.append_nil] at hall
    exact ⟨flushed, hflush, hall⟩
  · exact ⟨appended, rfl, hafter⟩

theorem rotate_eq_of_fault (hsound : state.files.Sound)
    (hdescends : Path.above ∉ Path.split state.sink.path.toList) (hopened : state.sink.Opened)
    {fault : IoFault} (hfault : (state.sink.rotate state.files).fault = some fault) :
    state.rotate = state.flush.1.report (.rotationFailed state.sink.name fault) := by
  obtain ⟨hfiles, hsink⟩ := Sink.rotate_of_fault hsound hdescends hopened hfault
  simp only [rotate, hfault, hfiles, hsink]
  rfl

theorem takes_rotate_of_fault (hsound : state.files.Sound)
    (hdescends : Path.above ∉ Path.split state.sink.path.toList) (hopened : state.sink.Opened)
    {fault : IoFault} (hfault : (state.sink.rotate state.files).fault = some fault)
    (hwrites : state.sink.stream.WritesTo state.files file) : state.Takes file [] state.rotate := by
  obtain ⟨flushed, hflush, htakes⟩ := takes_flush hwrites
  rw [rotate_eq_of_fault hsound hdescends hopened hfault, hflush]
  exact ⟨htakes.settings, htakes.writesTo, htakes.files_eq, htakes.taken_eq, htakes.size_eq⟩

end SinkState

/-- Rotation happens completely or not at all. In any sound tree, a sink whose path never goes up and that
has opened its file before, in this or any other tree, rotates. If the rotation fails, the whole tree is
that after the flush at its beginning, and the sink is the same but for what was flushed: it counts the same
bytes and has the same file open. If that is a regular file, every record that has a line is then written:
nothing but the contents of the file changes, and the line follows the bytes that the sink has taken for the
file before. -/
theorem Sink.rotate_all_or_nothing {sink : Sink} {files : FileTree} (hsound : files.Sound)
    (hdescends : Path.above ∉ Path.split sink.path.toList) (hopened : sink.Opened) {fault : IoFault}
    (hfault : (sink.rotate files).fault = some fault) :
    let flushed := sink.stream.flush files
    let rotated := sink.rotate files
    rotated.files = flushed.files ∧
      rotated.state = { sink with stream := flushed.state } ∧
      rotated.state.stream.handle.target = sink.stream.handle.target ∧
      ∀ file, sink.stream.WritesTo files file →
        ∀ (events : Array Event) (origin : Origin) (record : Record) (line : List Char),
          record.line? sink.format sink.name origin = some line →
            ∃ written, SinkState.write origin record ⟨sink, files, events⟩ = (written, .done) ∧
              SinkState.Takes ⟨sink, files, events⟩ file (Utf8.encode line) written := by
  intro flushed rotated
  obtain ⟨hfiles, hsink⟩ := rotate_of_fault hsound hdescends hopened hfault
  refine ⟨hfiles, hsink, ?_, ?_⟩
  · rw [hsink]
    exact (hsound.flush sink.stream).2
  · intro file hwrites events origin record line hline
    have hready : SinkState.Takes ⟨sink, files, events⟩ file []
        (if SinkState.isFull ⟨sink, files, events⟩ (Utf8.encode line).length then
          SinkState.rotate ⟨sink, files, events⟩ else ⟨sink, files, events⟩) := by
      split
      · exact SinkState.takes_rotate_of_fault hsound hdescends hopened hfault hwrites
      · exact .refl hwrites
    obtain ⟨written, hwritten, htakes⟩ := SinkState.takes_writeLine record.severity hready
    refine ⟨written, ?_, htakes⟩
    simp only [SinkState.write, hline, hwritten]

/-- The tree of the small sink with a directory where its rotated file would go. -/
def FileTree.blocked : FileTree :=
  FileTree.withLog.insert ["home".toList, "app.1.log".toList] .directory

/-- The small sink with bytes held back. -/
def Sink.holding (line : Bytes) : Sink :=
  { Sink.small with stream := ⟨⟨.file 0, none⟩, line⟩, size := line.length }

/-- The directory stops the rotation: the first line is flushed, the second line follows it, and the
directory stays. -/
theorem Sink.blocked_changes_nothing :
    let line := fun text : String => Utf8.bytes ("[1970-01-01 00:00:00.000] " ++ text ++ "\n")
    let sink := Sink.holding (line "[info] one")
    (sink.rotate FileTree.blocked).fault = some (.system .isDirectory) ∧
      (sink.rotate FileTree.blocked).files = FileTree.blocked.store 0 (line "[info] one") ∧
      ∃ written,
        SinkState.write ⟨1, 1⟩ ⟨.info, "two", ⟨0⟩⟩ ⟨sink, FileTree.blocked, #[]⟩ = (written, .done) ∧
        written.sink.stream.taken written.files 0 = line "[info] one" ++ line "[info] two" := by
  intro line sink
  have hsound : FileTree.blocked.Sound :=
    FileTree.sound_withLog.insert_directory (by decide) (by decide)
  have hfault : (sink.rotate FileTree.blocked).fault = some (.system .isDirectory) := by
    decide +kernel
  obtain ⟨hfiles, -, -, hwrite⟩ := Sink.rotate_all_or_nothing hsound (by decide)
    ⟨FileTree.initial, _, _, FileTree.sound_initial, Sink.start_small⟩ hfault
  obtain ⟨written, hwritten, htakes⟩ := hwrite 0 ⟨rfl, by decide⟩ #[] ⟨1, 1⟩
    ⟨.info, "two", ⟨0⟩⟩ ("[1970-01-01 00:00:00.000] " ++ "[info] two" ++ "\n").toList (by decide +kernel)
  exact ⟨hfault, hfiles, written, hwritten, htakes.taken_eq⟩

end LogRelay
