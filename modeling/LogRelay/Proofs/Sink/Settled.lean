import LogRelay.Proofs.Sink.Call

/-!
# The tree once everything is written

What a sink holds back can be written at any time, which settles its tree. The settled tree does not depend
on when a sink was flushed: a line changes it as if the sink held nothing back and measured the file itself.
-/

namespace LogRelay

/-- The tree with bytes at the end of the regular file that a path leads to. -/
def FileTree.extend (tree : FileTree) (path : List Char) (bytes : Bytes) : FileTree :=
  match tree.fileAt? path with
  | some file => tree.store file (tree.read file ++ bytes)
  | none => tree

namespace Sink

/-- The tree after the files of a sink have moved up and an empty one has been opened, if nothing fails. -/
def turn? (sink : Sink) (tree : FileTree) : Option FileTree :=
  let moved := sink.moveAllUp sink.maxFiles tree
  match moved.2 with
  | some _ => none
  | none => (moved.1.create sink.path.toList).toOption.map Prod.snd

/-- The tree after a line, if nothing fails, with the size of the file as the tree has it. -/
def enter? (sink : Sink) (tree : FileTree) (line : Bytes) : Option FileTree :=
  let size := (tree.contentAt sink.path.toList).length
  let ready :=
    if 0 < size ∧ sink.maxSize < size + line.length then sink.turn? tree else some tree
  ready.map fun tree => tree.extend sink.path.toList line

variable {first second : Sink}

theorem moveAllUp_congr (hpath : second.path = first.path) (number : Nat) (tree : FileTree) :
    second.moveAllUp number tree = first.moveAllUp number tree := by
  induction number generalizing tree with
  | zero => rfl
  | succ number induction =>
      have hrest : second.moveAllUp number = first.moveAllUp number := funext induction
      rw [moveAllUp, moveAllUp, moveUp_eq, moveUp_eq, hpath, hrest]

theorem enter?_congr (hsame : first.SameSettings second) : second.enter? = first.enter? := by
  funext tree line
  simp only [enter?, turn?, moveAllUp_congr hsame.path_eq, hsame.path_eq, hsame.maxSize_eq,
    hsame.maxFiles_eq]

end Sink

namespace SinkState

/-- The tree once the bytes held back are written. -/
def settled (state : SinkState) : FileTree := state.flush.1.files

variable {state : SinkState}

theorem settled_of_held (hheld : state.sink.stream.held = []) : state.settled = state.files := by
  simp [settled, flush, Stream.flush, hheld]

theorem files_drop (state : SinkState) : state.drop.files = state.settled := by
  simp only [drop, settled]
  split <;> rfl

theorem Moored.settled_eq (hmoored : state.Moored) {file : Nat}
    (hfile : state.files.row state.sink.path.toList 0 = some file) :
    state.settled =
      state.files.store file (state.files.read file ++ state.sink.stream.held) := by
  obtain ⟨found, hfound, hfollows⟩ := hmoored.follows
  obtain rfl : found = file := Option.some.inj (hfound.symm.trans hfile)
  obtain ⟨flushed, hflush, -, -⟩ := hfollows.flush
  simp [settled, SinkState.flush, hflush]

theorem Moored.contentAt_settled (hmoored : state.Moored) :
    state.settled.contentAt state.sink.path.toList = state.active := by
  obtain ⟨file, hfile, -⟩ := hmoored.follows
  have hrow : state.settled.row state.sink.path.toList 0 = some file := by
    rw [hmoored.settled_eq hfile, FileTree.row_store, hfile]
  rw [FileTree.contentAt_of_row hrow, hmoored.settled_eq hfile,
    FileTree.read_store_self (hmoored.shelf.lt_size_of_row hfile), active,
    FileTree.contentAt_of_row hfile]

theorem Moored.settled_flush (hmoored : state.Moored) : state.flush.1.settled = state.settled := by
  obtain ⟨flushed, hflush, -, -, -, hempty, -⟩ := hmoored.flush
  have hheld : state.flush.1.sink.stream.held = [] := by
    rw [hflush]
    exact hempty
  exact settled_of_held hheld

/-- Taking bytes adds them to the settled tree. -/
theorem Moored.settled_append (hmoored : state.Moored) (bytes : Bytes) :
    (state.append bytes).1.settled = state.settled.extend state.sink.path.toList bytes := by
  obtain ⟨file, hfile, hfollows⟩ := hmoored.follows
  obtain ⟨stream, disk, hstream, hdisk, -⟩ := hfollows.append bytes
  obtain ⟨appended, happend, hnext, -, -, hsettings⟩ := hmoored.append bytes
  have hstate : appended = ⟨{ state.sink with
      stream := stream, size := state.sink.size + bytes.length },
      state.files.store file disk, state.events⟩ := by
    have hsame := congrArg Prod.fst happend
    simpa [SinkState.append, hstream] using hsame.symm
  have hlt := hmoored.shelf.lt_size_of_row hfile
  have hrow : appended.files.row appended.sink.path.toList 0 = some file := by
    rw [hstate, FileTree.row_store]
    exact hfile
  have hfileAt : state.settled.fileAt? state.sink.path.toList = some file := by
    have hsettledRow : state.settled.row state.sink.path.toList 0 = some file := by
      rw [hmoored.settled_eq hfile, FileTree.row_store, hfile]
    exact hsettledRow
  rw [happend, hnext.settled_eq hrow, FileTree.extend, hfileAt, hmoored.settled_eq hfile, hstate]
  simp only [FileTree.read_store_self hlt, FileTree.store_store, hdisk]

theorem Moored.settled_writeLine {ready : SinkState} (hmoored : ready.Moored) {line : Bytes}
    (hready : (if state.isFull line.length then state.rotate else state) = ready)
    (severity : Severity) :
    (SinkState.writeLine severity line state).1.settled =
      ready.settled.extend ready.sink.path.toList line := by
  obtain ⟨appended, happend, hnext, -⟩ := hmoored.append line
  rw [← hmoored.settled_append]
  simp only [SinkState.writeLine, hready, happend]
  split
  · exact hnext.settled_flush
  · rfl

/-- A rotation succeeds exactly if the settled tree can be turned, which it then does. -/
theorem Moored.turn? (hmoored : state.Moored) :
    state.sink.turn? state.settled =
      if (state.sink.rotate state.files).fault = none then some state.rotate.settled else none := by
  obtain ⟨file, hfile, hfollows⟩ := hmoored.follows
  obtain ⟨flushed, hflush, -, -⟩ := hfollows.flush
  have hsettled := hmoored.settled_eq hfile
  by_cases hfault : (state.sink.rotate state.files).fault = none
  · obtain ⟨moved, handle, created, hmoved, hcreate, hrotate⟩ := Sink.rotate_ok hflush hfault
    rw [if_pos hfault, Sink.turn?, hsettled, hmoved]
    simp only [hcreate]
    rw [rotate_eq_of_ok hrotate, settled_of_held rfl]
    rfl
  · rw [if_neg hfault, Sink.turn?, hsettled]
    simp only [Sink.rotate, hflush] at hfault
    split
    · rfl
    · next hmoved =>
      simp only [hmoved] at hfault
      split at hfault
      · next hcreate =>
        rw [hcreate]
        rfl
      · exact absurd rfl hfault

theorem Moored.isFull_eq (hmoored : state.Moored) (count : Nat) :
    let size := (state.settled.contentAt state.sink.path.toList).length
    state.isFull count = decide (0 < size ∧ state.sink.maxSize < size + count) := by
  intro size
  have hsize : state.sink.size = size := by rw [hmoored.size_eq, ← hmoored.contentAt_settled]
  rw [isFull, hsize, Bool.decide_and]

/-- A line enters the settled tree exactly if the rotation that it calls for succeeds. -/
theorem Moored.enter? (hmoored : state.Moored) (severity : Severity) (line : Bytes) :
    state.sink.enter? state.settled line =
      if state.isFull line.length = true → (state.sink.rotate state.files).fault = none
      then some (SinkState.writeLine severity line state).1.settled else none := by
  have hsize := hmoored.isFull_eq line.length
  simp only at hsize
  cases hfull : state.isFull line.length with
  | false =>
      have hready : (if state.isFull line.length then state.rotate else state) = state := by
        rw [hfull, if_neg Bool.false_ne_true]
      rw [Sink.enter?, if_neg (of_decide_eq_false (hsize.symm.trans hfull)),
        if_pos (fun habsurd => absurd habsurd Bool.false_ne_true), hmoored.settled_writeLine hready,
        Option.map_some]
  | true =>
      have hready : (if state.isFull line.length then state.rotate else state) = state.rotate := by
        rw [hfull, if_pos rfl]
      rw [Sink.enter?, if_pos (of_decide_eq_true (hsize.symm.trans hfull)), hmoored.turn?]
      by_cases hfault : (state.sink.rotate state.files).fault = none
      · obtain ⟨hrotated, -, -, hsettings⟩ := hmoored.rotate hfault
        rw [if_pos hfault, if_pos (fun _ => hfault), hrotated.settled_writeLine hready,
          hsettings.path_eq, Option.map_some]
      · rw [if_neg hfault, if_neg (fun himplies => hfault (himplies rfl)), Option.map_none]

/-- A call can only fail over its rotation. -/
theorem Moored.succeeds_iff (hmoored : state.Moored) (call : SinkCall) :
    state.Succeeds call ↔
      (state.rotatesOn call = true → (state.sink.rotate state.files).fault = none) := by
  refine ⟨fun hsucceeds => hsucceeds.1, fun hrotates => ⟨hrotates, ?_⟩⟩
  cases call with
  | flush =>
      obtain ⟨flushed, hflush, -⟩ := hmoored.flush
      rw [faultOf?, hflush]
  | write origin record =>
      rw [faultOf?, SinkState.write]
      cases hline : record.line? state.sink.format state.sink.name origin with
      | none => rfl
      | some chars =>
          have hwritten : (SinkState.writeLine record.severity (Utf8.encode chars) state).2 = none := by
            cases hfull : state.isFull (Utf8.encode chars).length with
            | false =>
                obtain ⟨written, hdone, -⟩ := hmoored.writeLine_of_room record.severity hfull
                rw [hdone]
            | true =>
                have hfault := hrotates (by simpa [rotatesOn, SinkCall.line?, hline] using hfull)
                obtain ⟨written, hdone, -⟩ := hmoored.writeLine_of_full record.severity hfull hfault
                rw [hdone]
          simp only [hwritten]

/-- A call changes the settled tree by its line, and succeeds exactly if the line can be entered. -/
theorem Moored.settled_call (hmoored : state.Moored) (call : SinkCall) :
    (if state.Succeeds call then some (state.call call).settled else none) =
      (call.line? state.sink).elim (some state.settled) (state.sink.enter? state.settled) := by
  simp only [hmoored.succeeds_iff]
  cases call with
  | flush =>
      have hquiet : state.rotatesOn .flush = false := rfl
      rw [hquiet, if_pos (fun hrotates => absurd hrotates Bool.false_ne_true)]
      exact congrArg some hmoored.settled_flush
  | write origin record =>
      rw [rotatesOn, SinkCall.line?, SinkState.call, SinkState.write]
      cases hline : record.line? state.sink.format state.sink.name origin with
      | none => rfl
      | some chars =>
          simp only [Option.map_some, Option.elim_some]
          rw [hmoored.enter? record.severity]
          split
          · split <;> rfl
          · rfl

end SinkState

end LogRelay
