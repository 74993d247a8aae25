import LogRelay.Proofs.Sink.Writing

/-!
# The files of a sink

The files of a sink are its rotated files, the greatest number first, and the file it writes to with the
bytes held back behind it. Flushing leaves them as they are, taking a line makes the last one longer, and
a rotation puts an empty file behind them, losing at most the first.
-/

namespace LogRelay

namespace Row

variable {row : Row}

theorem mem_shelved {count held : Nat} (hmem : held ∈ row.shelved count) :
    ∃ number, 0 < number ∧ number ≤ count ∧ row number = some held := by
  induction count with
  | zero => exact absurd hmem List.not_mem_nil
  | succ number induction =>
      rcases List.mem_append.1 hmem with hfirst | hrest
      · exact ⟨number + 1, by omega, by omega, Option.mem_toList.1 hfirst⟩
      · obtain ⟨lower, hpos, hle, hheld⟩ := induction hrest
        exact ⟨lower, hpos, by omega, hheld⟩

theorem of_pushedOut {number held : Nat} (hheld : row.pushedOut (number + 1) = some held) :
    row (number + 1) = some held := by
  rw [pushedOut] at hheld
  split at hheld
  · exact hheld
  · exact absurd hheld (by simp)

end Row

namespace FileTree

/-- The contents of the rotated files of a path from a number down to one. -/
def rotatedFiles (tree : FileTree) (path : List Char) (count : Nat) : List Bytes :=
  ((tree.row path).shelved count).map tree.read

/-- The contents of the file that a path leads to, empty if there is none. -/
def contentAt (tree : FileTree) (path : List Char) : Bytes :=
  ((tree.fileAt? path).map tree.read).getD []

/-- The contents of the files of a log, the oldest first: rotated files, then the file itself. -/
def logFiles (tree : FileTree) (path : List Char) (count : Nat) : List Bytes :=
  tree.rotatedFiles path count ++ [tree.contentAt path]

/-- The contents of the file that a rotation discards: the one with the greatest number if the file below
it takes its place, and the one at the path if no rotated files are kept. -/
def gone (tree : FileTree) (path : List Char) (count : Nat) : List Bytes :=
  ((tree.row path).pushedOut count).toList.map tree.read

theorem contentAt_of_row {tree : FileTree} {path : List Char} {file : Nat}
    (hfile : tree.row path 0 = some file) : tree.contentAt path = tree.read file := by
  have hfileAt : tree.fileAt? path = some file := hfile
  simp [contentAt, hfileAt]

theorem Shelf.rotatedFiles_store {tree : FileTree} {path : List Char} {count : Nat}
    (hshelf : tree.Shelf path count) {file : Nat} (hfile : tree.row path 0 = some file)
    (bytes : Bytes) (upTo : Nat) :
    (tree.store file bytes).rotatedFiles path upTo = tree.rotatedFiles path upTo := by
  rw [rotatedFiles, rotatedFiles, row_store]
  apply List.map_congr_left
  intro other hother
  obtain ⟨number, hpos, -, hrow⟩ := Row.mem_shelved hother
  apply read_store_of_ne
  rintro rfl
  exact absurd (hshelf.row_injective hrow hfile) (by omega)

end FileTree

namespace SinkState

/-- The contents of the file written to, with what is held back behind them. -/
def active (state : SinkState) : Bytes :=
  state.files.contentAt state.sink.path.toList ++ state.sink.stream.held

/-- The contents of the rotated files. -/
def rotatedFiles (state : SinkState) : List Bytes :=
  state.files.rotatedFiles state.sink.path.toList state.sink.maxFiles

/-- The contents of all files of the sink, the oldest first. -/
def logFiles (state : SinkState) : List Bytes := state.rotatedFiles ++ [state.active]

/-- The contents of the file that a rotation discards, with what is held back if it is the file written
to. -/
def discarded (state : SinkState) : List Bytes :=
  if state.sink.maxFiles = 0 then [state.active]
  else state.files.gone state.sink.path.toList state.sink.maxFiles

end SinkState

/-- What stays the same about a sink that writes and flushes. -/
structure Sink.SameSettings (first second : Sink) : Prop where
  /-- The name in the lines. -/
  name_eq : second.name = first.name
  /-- The path of the file. -/
  path_eq : second.path = first.path
  /-- How lines are written. -/
  format_eq : second.format = first.format
  /-- The size that the file may not exceed. -/
  maxSize_eq : second.maxSize = first.maxSize
  /-- The number of rotated files. -/
  maxFiles_eq : second.maxFiles = first.maxFiles

theorem Sink.SameSettings.refl (sink : Sink) : sink.SameSettings sink := ⟨rfl, rfl, rfl, rfl, rfl⟩

theorem Sink.SameSettings.trans {first second third : Sink} (hfirst : first.SameSettings second)
    (hsecond : second.SameSettings third) : first.SameSettings third :=
  ⟨hsecond.name_eq.trans hfirst.name_eq, hsecond.path_eq.trans hfirst.path_eq,
    hsecond.format_eq.trans hfirst.format_eq, hsecond.maxSize_eq.trans hfirst.maxSize_eq,
    hsecond.maxFiles_eq.trans hfirst.maxFiles_eq⟩

namespace SinkState

/-- The sink writes at the end of the file on its shelf and counts its bytes. -/
structure Moored (state : SinkState) : Prop where
  /-- The files stand on a shelf. -/
  shelf : state.files.Shelf state.sink.path.toList state.sink.maxFiles
  /-- The stream follows the file at the path. -/
  follows : ∃ file, state.files.row state.sink.path.toList 0 = some file ∧
    state.sink.stream.Follows state.files file
  /-- The bytes in the file and held back are counted. -/
  size_eq : state.sink.size = state.active.length

variable {state : SinkState}

/-- Storing in the file written to, and holding bytes back, moves no other file. -/
theorem Moored.store (hmoored : state.Moored) {file : Nat}
    (hfile : state.files.row state.sink.path.toList 0 = some file) {stream : Stream} {disk : Bytes}
    (hfollows : stream.Follows (state.files.store file disk) file) {size : Nat}
    (hsize : size = (disk ++ stream.held).length) (events : Array Event) :
    let stored : SinkState :=
      ⟨{ state.sink with stream := stream, size := size }, state.files.store file disk, events⟩
    stored.Moored ∧ stored.rotatedFiles = state.rotatedFiles ∧ stored.active = disk ++ stream.held := by
  intro stored
  have hactive : stored.active = disk ++ stream.held := by
    have hrow : stored.files.row state.sink.path.toList 0 = some file := by
      rw [FileTree.row_store]
      exact hfile
    have hdisk : stored.files.read file = disk :=
      FileTree.read_store_self (hmoored.shelf.lt_size_of_row hfile) disk
    change stored.files.contentAt state.sink.path.toList ++ stream.held = _
    rw [FileTree.contentAt_of_row hrow, hdisk]
  refine ⟨⟨hmoored.shelf.store file disk, ⟨file, ?_, hfollows⟩, ?_⟩, ?_, hactive⟩
  · rw [FileTree.row_store]
    exact hfile
  · rw [hactive]
    exact hsize
  · exact hmoored.shelf.rotatedFiles_store hfile disk _

/-- Flushing succeeds and leaves the files as they are. -/
theorem Moored.flush (hmoored : state.Moored) :
    ∃ flushed, state.flush = (flushed, none) ∧ flushed.Moored ∧
      flushed.rotatedFiles = state.rotatedFiles ∧ flushed.active = state.active ∧
      flushed.sink.stream.held = [] ∧ state.sink.SameSettings flushed.sink := by
  obtain ⟨file, hfile, hfollows⟩ := hmoored.follows
  obtain ⟨stream, hflush, hempty, hnext⟩ := hfollows.flush
  have hactive : state.active = state.files.read file ++ state.sink.stream.held := by
    rw [active, FileTree.contentAt_of_row hfile]
  have hsize : state.sink.size =
      (state.files.read file ++ state.sink.stream.held ++ stream.held).length := by
    rw [hempty, List.append_nil, ← hactive, hmoored.size_eq]
  obtain ⟨hstored, hrotated, hstoredActive⟩ := hmoored.store hfile hnext hsize state.events
  refine ⟨_, ?_, hstored, hrotated, ?_, hempty, ⟨rfl, rfl, rfl, rfl, rfl⟩⟩
  · simp [SinkState.flush, hflush]
  · rw [hstoredActive, hempty, List.append_nil, hactive]

theorem Moored.append (hmoored : state.Moored) (bytes : Bytes) :
    ∃ appended, state.append bytes = (appended, none) ∧ appended.Moored ∧
      appended.rotatedFiles = state.rotatedFiles ∧ appended.active = state.active ++ bytes ∧
      state.sink.SameSettings appended.sink := by
  obtain ⟨file, hfile, hfollows⟩ := hmoored.follows
  obtain ⟨stream, disk, happend, hdisk, hnext⟩ := hfollows.append bytes
  have hactive : state.active ++ bytes = disk ++ stream.held := by
    rw [active, FileTree.contentAt_of_row hfile, hdisk]
  have hsize : state.sink.size + bytes.length = (disk ++ stream.held).length := by
    rw [← hactive, List.length_append, hmoored.size_eq]
  obtain ⟨hstored, hrotated, hstoredActive⟩ := hmoored.store hfile hnext hsize state.events
  refine ⟨_, ?_, hstored, hrotated, ?_, ⟨rfl, rfl, rfl, rfl, rfl⟩⟩
  · simp [SinkState.append, happend]
  · rw [hstoredActive, hactive]

end SinkState

/-! ## Rotating -/

/-- Emptying the file at the path of a shelf, or making it. -/
theorem FileTree.Shelf.create_cases {tree : FileTree} {path : List Char} {count : Nat}
    (hshelf : tree.Shelf path count) {handle : Handle} {created : FileTree}
    (hcreate : tree.create path = .ok (handle, created)) :
    created.Shelf path count ∧ ∃ file, handle = ⟨.file file, some 0⟩ ∧
      created.row path = Function.update (tree.row path) 0 (some file) ∧ created.read file = [] ∧
      (tree.row path 0 = some file ∨
        (tree.row path 0 = none ∧ ∀ other < tree.contents.size,
          created.read other = tree.read other)) := by
  obtain ⟨target, opened, hopen, rfl, rfl⟩ := exists_target_of_create hcreate
  obtain ⟨hopened, file, rfl, hrow, hcases⟩ := hshelf.openTarget_cases hopen
  have hlt : file < opened.contents.size := by
    apply hopened.lt_size_of_row
    rw [hrow, Function.update_self]
  refine ⟨hopened.store file [], file, rfl, ?_, read_store_self hlt [], ?_⟩
  · rw [row_store]
    exact hrow
  · rcases hcases with ⟨hfound, -⟩ | ⟨hvacant, rfl, hcontents⟩
    · exact .inl hfound
    · refine .inr ⟨hvacant, ?_⟩
      intro other hother
      rw [read_store_of_ne (Nat.ne_of_lt hother), read_of_contents_eq_push hcontents hother]

/-- Of the files of a shelf that is rotated, only those that are discarded are missing. -/
theorem FileTree.Shelf.gone_append {tree moved created : FileTree} {path : List Char} {count : Nat}
    (hshelf : tree.Shelf path count) {file fresh : Nat} (hfile : tree.row path 0 = some file)
    (hcontents : moved.contents = tree.contents)
    (hmoved : moved.row path = (tree.row path).raiseAll count)
    (hcreated : created.row path = Function.update (moved.row path) 0 (some fresh))
    (hcases : moved.row path 0 = some fresh ∨
      (moved.row path 0 = none ∧ ∀ other < moved.contents.size,
        created.read other = moved.read other)) :
    tree.gone path count ++ created.rotatedFiles path count =
      tree.rotatedFiles path count ++ [tree.read file] := by
  have hread : ∀ other, moved.read other = tree.read other := by
    intro other
    rw [read, read, hcontents]
  cases count with
  | zero => simp [gone, rotatedFiles, Row.shelved, Row.pushedOut, hfile]
  | succ number =>
      have hvacant : moved.row path 0 = none := by rw [hmoved, Row.raiseAll_self]
      have hkept : ∀ other < tree.contents.size, created.read other = tree.read other := by
        rcases hcases with hsome | ⟨-, hkept⟩
        · rw [hvacant] at hsome
          exact absurd hsome (by simp)
        · intro other hother
          rw [hkept other (by rw [hcontents]; exact hother), hread]
      have hrow : (created.row path).shelved (number + 1) =
          ((tree.row path).raiseAll (number + 1)).shelved (number + 1) := by
        rw [← hmoved]
        apply Row.shelved_congr
        intro other hpos _
        rw [hcreated, Function.update_of_ne (by omega)]
      have hrow' := Row.pushedOut_append_raiseAll (tree.row path) number
      have hmem : ∀ other ∈ ((tree.row path).raiseAll (number + 1)).shelved (number + 1),
          other < tree.contents.size := by
        intro other hother
        have hbefore : other ∈ (tree.row path).shelved (number + 1) ++ (tree.row path 0).toList := by
          rw [← hrow']
          exact List.mem_append_right _ hother
        rcases List.mem_append.1 hbefore with hshelved | hzero
        · obtain ⟨lower, -, -, hlower⟩ := Row.mem_shelved hshelved
          exact hshelf.lt_size_of_row hlower
        · exact hshelf.lt_size_of_row (Option.mem_toList.1 hzero)
      have hrotated : created.rotatedFiles path (number + 1) =
          (((tree.row path).raiseAll (number + 1)).shelved (number + 1)).map tree.read := by
        rw [rotatedFiles, hrow]
        exact List.map_congr_left fun other hother => hkept other (hmem other hother)
      rw [gone, hrotated, ← List.map_append, hrow', List.map_append, hfile]
      rfl

/-- The steps of a rotation that does not fail. -/
theorem Sink.rotate_ok {sink : Sink} {files flushedFiles : FileTree} {flushed : Stream}
    (hflush : sink.stream.flush files = ⟨flushed, flushedFiles, none⟩)
    (hfault : (sink.rotate files).fault = none) :
    ∃ moved handle created, sink.moveAllUp sink.maxFiles flushedFiles = (moved, none) ∧
      moved.create sink.path.toList = .ok (handle, created) ∧
      sink.rotate files = ⟨{ sink with stream := .ofHandle handle, size := 0 }, created, none⟩ := by
  simp only [rotate, hflush] at hfault ⊢
  cases hmoved : sink.moveAllUp sink.maxFiles flushedFiles with
  | mk moved fault =>
      cases fault with
      | some fault => simp [hmoved] at hfault
      | none =>
          simp only [hmoved] at hfault ⊢
          cases hcreate : moved.create sink.path.toList with
          | error fault => simp [hcreate] at hfault
          | ok result => exact ⟨moved, result.1, result.2, rfl, hcreate, rfl⟩

namespace SinkState

variable {state : SinkState}

theorem rotate_eq_of_ok {sink : Sink} {created : FileTree}
    (hrotate : state.sink.rotate state.files = ⟨sink, created, none⟩) :
    state.rotate =
      ⟨sink, created, state.events.push (.rotated state.sink.name state.sink.path)⟩ := by
  simp [SinkState.rotate, hrotate, report]

/-- What a rotation discards, seen in the tree after the flush, in which the file written to is
complete. -/
theorem Moored.discarded_eq (hmoored : state.Moored) {file : Nat}
    (hfile : state.files.row state.sink.path.toList 0 = some file) :
    state.discarded = (state.files.store file state.active).gone state.sink.path.toList
      state.sink.maxFiles := by
  have hwritten : (state.files.store file state.active).read file = state.active :=
    FileTree.read_store_self (hmoored.shelf.lt_size_of_row hfile) _
  cases hcount : state.sink.maxFiles with
  | zero => simp [discarded, hcount, FileTree.gone, Row.pushedOut, FileTree.row_store, hfile, hwritten]
  | succ number =>
      rw [discarded, hcount, if_neg (Nat.succ_ne_zero number), FileTree.gone, FileTree.gone,
        FileTree.row_store]
      apply List.map_congr_left
      intro other hother
      apply Eq.symm
      apply FileTree.read_store_of_ne
      rintro rfl
      have hsame := hmoored.shelf.row_injective
        (Row.of_pushedOut (Option.mem_toList.1 hother)) hfile
      exact absurd hsame (Nat.succ_ne_zero number)

/-- A sink with an empty file at its path. -/
theorem moored_of_empty {sink : Sink} {files : FileTree} {file : Nat}
    (hshelf : files.Shelf sink.path.toList sink.maxFiles)
    (hfile : files.row sink.path.toList 0 = some file) (hempty : files.read file = [])
    (events : Array Event) :
    let emptied : SinkState :=
      ⟨{ sink with stream := .ofHandle ⟨.file file, some 0⟩, size := 0 }, files, events⟩
    emptied.Moored ∧ emptied.active = [] := by
  intro emptied
  have hactive : emptied.active = [] := by
    change files.contentAt sink.path.toList ++ [] = []
    rw [FileTree.contentAt_of_row hfile, hempty, List.append_nil]
  refine ⟨⟨hshelf, ⟨file, hfile, rfl, hshelf.lt_size_of_row hfile, .inr ?_⟩, ?_⟩, hactive⟩
  · simp [emptied, hempty, Stream.ofHandle]
  · rw [hactive]
    rfl

/-- A rotation puts an empty file behind the files, of which it discards at most one. -/
theorem Moored.rotate (hmoored : state.Moored)
    (hfault : (state.sink.rotate state.files).fault = none) :
    state.rotate.Moored ∧
      state.discarded ++ state.rotate.rotatedFiles = state.rotatedFiles ++ [state.active] ∧
      state.rotate.active = [] ∧ state.sink.SameSettings state.rotate.sink := by
  obtain ⟨file, hfile, hfollows⟩ := hmoored.follows
  obtain ⟨flushed, hflush, -, -⟩ := hfollows.flush
  have hactive : state.files.read file ++ state.sink.stream.held = state.active := by
    rw [active, FileTree.contentAt_of_row hfile]
  rw [hactive] at hflush
  obtain ⟨moved, handle, created, hmoved, hcreate, hrotate⟩ := Sink.rotate_ok hflush hfault
  let complete := state.files.store file state.active
  have hwritten : complete.read file = state.active :=
    FileTree.read_store_self (hmoored.shelf.lt_size_of_row hfile) _
  have hcompleteRow : complete.row state.sink.path.toList 0 = some file := by
    rw [FileTree.row_store]
    exact hfile
  have hcomplete : complete.Shelf state.sink.path.toList state.sink.maxFiles :=
    hmoored.shelf.store file _
  obtain ⟨hmovedShelf, hcontents, hmovedRow⟩ :=
    Sink.shelf_moveAllUp hcomplete (Nat.le_refl _) hmoved
  obtain ⟨hcreatedShelf, fresh, rfl, hrow, hempty, hcases⟩ := hmovedShelf.create_cases hcreate
  have hzero : created.row state.sink.path.toList 0 = some fresh := by
    rw [hrow, Function.update_self]
  obtain ⟨hrotated, hrotatedActive⟩ := moored_of_empty hcreatedShelf hzero hempty
    (state.events.push (.rotated state.sink.name state.sink.path))
  have hbefore : state.rotatedFiles =
      complete.rotatedFiles state.sink.path.toList state.sink.maxFiles :=
    (hmoored.shelf.rotatedFiles_store hfile _ _).symm
  have hgone := hcomplete.gone_append hcompleteRow hcontents hmovedRow hrow hcases
  rw [hwritten] at hgone
  rw [rotate_eq_of_ok hrotate]
  refine ⟨hrotated, ?_, hrotatedActive, ⟨rfl, rfl, rfl, rfl, rfl⟩⟩
  rw [hmoored.discarded_eq hfile, hbefore]
  exact hgone

end SinkState

end LogRelay
