import LogRelay.Proofs.Sink.Shelf

/-!
# Writing to a file

A stream on a regular file takes bytes without fail: it changes no other file, and the bytes follow those it
has taken before, however they are divided between the file and what is held back. A stream that follows the
file has the end of the file as its position, and keeps it; what it has taken is then the whole file, with
what is held back behind it.
-/

namespace LogRelay

namespace FileTree

@[simp]
theorem store_store (tree : FileTree) (file : Nat) (first second : Bytes) :
    (tree.store file first).store file second = tree.store file second := by
  simp [store]

@[simp]
theorem size_contents_store (tree : FileTree) (file : Nat) (bytes : Bytes) :
    (tree.store file bytes).contents.size = tree.contents.size := by
  simp [store]

theorem patch_length (old bytes : Bytes) : patch old old.length bytes = old ++ bytes := by
  simp [patch]

theorem le_length_patch (old bytes : Bytes) (position : Nat) :
    position + bytes.length ≤ (patch old position bytes).length := by
  simp only [patch, List.length_append, List.length_take, List.length_replicate]
  omega

theorem take_patch (old bytes : Bytes) (position : Nat) :
    (patch old position bytes).take (position + bytes.length) =
      old.take position ++ List.replicate (position - old.length) 0 ++ bytes := by
  have hlength : (old.take position ++ List.replicate (position - old.length) 0 ++ bytes).length =
      position + bytes.length := by
    simp only [List.length_append, List.length_take, List.length_replicate]
    omega
  rw [patch, ← hlength, List.take_left]

/-- The contents of a file up to a position, a gap before it filled with zeros, or up to its end. -/
def upTo (tree : FileTree) (file : Nat) : Option Nat → Bytes
  | none => tree.read file
  | some position =>
      (tree.read file).take position ++ List.replicate (position - (tree.read file).length) 0

theorem Sound.write {tree written : FileTree} (hsound : tree.Sound) {handle next : Handle}
    {bytes : Bytes} (hwrite : tree.write handle bytes = .ok (next, written)) :
    written.Sound ∧ next.target = handle.target := by
  unfold FileTree.write at hwrite
  split at hwrite
  · obtain ⟨rfl, rfl⟩ := Prod.mk.inj (Except.ok.inj hwrite)
    exact ⟨hsound, rfl⟩
  · split at hwrite
    · obtain ⟨rfl, rfl⟩ := Prod.mk.inj (Except.ok.inj hwrite)
      exact ⟨hsound, rfl⟩
    · exact absurd hwrite (by simp [fail])
  · split at hwrite <;> obtain ⟨rfl, rfl⟩ := Prod.mk.inj (Except.ok.inj hwrite)
    · exact ⟨hsound.store _ _, rfl⟩
    · exact ⟨hsound.store _ _, rfl⟩

theorem Sound.flush {tree : FileTree} (hsound : tree.Sound) (stream : Stream) :
    (stream.flush tree).files.Sound ∧
      (stream.flush tree).state.handle.target = stream.handle.target := by
  unfold Stream.flush
  split
  · exact ⟨hsound, rfl⟩
  · split
    · next hwrite => exact hsound.write hwrite
    · exact ⟨hsound, rfl⟩

end FileTree

namespace Stream

/-- The bytes that a stream has taken for a file: what the file holds before its position, and what is held
back. -/
def taken (stream : Stream) (files : FileTree) (file : Nat) : Bytes :=
  files.upTo file stream.handle.position ++ stream.held

/-- The stream writes to a regular file, wherever in it. -/
structure WritesTo (stream : Stream) (files : FileTree) (file : Nat) : Prop where
  /-- The file is open. -/
  target_eq : stream.handle.target = .file file
  /-- The file has contents. -/
  stored : file < files.contents.size

/-- The stream writes at the end of a regular file. -/
structure Follows (stream : Stream) (files : FileTree) (file : Nat) : Prop where
  /-- It writes to the file. -/
  target_eq : stream.handle.target = .file file
  /-- The file has contents. -/
  stored : file < files.contents.size
  /-- The next byte goes to the end. -/
  position_eq : stream.handle.position = none ∨
    stream.handle.position = some (files.read file).length

/-- What a stream that takes some bytes comes to. -/
structure Takes (stream : Stream) (files : FileTree) (file : Nat) (bytes : Bytes)
    (after : Applied Stream) : Prop where
  /-- Nothing fails. -/
  fault_eq : after.fault = none
  /-- The same file is open. -/
  writesTo : after.state.WritesTo after.files file
  /-- Only its contents have changed. -/
  files_eq : ∃ disk, after.files = files.store file disk
  /-- The bytes follow those taken before. -/
  taken_eq : after.state.taken after.files file = stream.taken files file ++ bytes
  /-- At the end of the file it stays at the end. -/
  follows : stream.Follows files file → after.state.Follows after.files file

variable {stream : Stream} {files : FileTree} {file : Nat}

theorem Follows.writesTo (hfollows : stream.Follows files file) : stream.WritesTo files file :=
  ⟨hfollows.target_eq, hfollows.stored⟩

theorem Follows.taken_eq (hfollows : stream.Follows files file) :
    stream.taken files file = files.read file ++ stream.held := by
  rcases hfollows.position_eq with hend | hend <;> simp [taken, hend, FileTree.upTo]

/-! ## Writing, flushing and taking -/

theorem WritesTo.write (hwrites : stream.WritesTo files file) (bytes : Bytes) :
    ∃ handle disk, files.write stream.handle bytes = .ok (handle, files.store file disk) ∧
      ∀ held, WritesTo ⟨handle, held⟩ (files.store file disk) file ∧
        taken ⟨handle, held⟩ (files.store file disk) file =
          files.upTo file stream.handle.position ++ bytes ++ held ∧
        (stream.Follows files file → Follows ⟨handle, held⟩ (files.store file disk) file) := by
  have hstored : ∀ disk, file < (files.store file disk).contents.size := by
    simpa using hwrites.stored
  have hread := fun disk => FileTree.read_store_self hwrites.stored disk
  cases hposition : stream.handle.position with
  | none =>
      refine ⟨stream.handle, files.read file ++ bytes, ?_, fun held => ⟨?_, ?_, ?_⟩⟩
      · simp [FileTree.write, hwrites.target_eq, hposition]
      · exact ⟨hwrites.target_eq, hstored _⟩
      · simp only [taken, hposition, FileTree.upTo, hread]
      · exact fun _ => ⟨hwrites.target_eq, hstored _, .inl hposition⟩
  | some position =>
      refine ⟨⟨.file file, some (position + bytes.length)⟩,
        FileTree.patch (files.read file) position bytes, ?_, fun held => ⟨⟨rfl, hstored _⟩, ?_, ?_⟩⟩
      · simp only [FileTree.write, hwrites.target_eq, hposition]
      · have hlong := FileTree.le_length_patch (files.read file) bytes position
        simp only [taken, FileTree.upTo, hread, FileTree.take_patch, Nat.sub_eq_zero_of_le hlong,
          List.replicate_zero, List.append_nil]
      · intro hfollows
        have hend : position = (files.read file).length := by
          simpa [hposition] using hfollows.position_eq
        refine ⟨rfl, hstored _, .inr ?_⟩
        rw [hread, hend, FileTree.patch_length, List.length_append]

theorem WritesTo.held_flush (hwrites : stream.WritesTo files file) :
    (stream.flush files).state.held = [] := by
  by_cases hheld : stream.held = []
  · rw [Stream.flush, if_pos hheld, hheld]
  · obtain ⟨handle, disk, hwrite, -⟩ := hwrites.write stream.held
    simp only [Stream.flush, if_neg hheld, hwrite]

theorem WritesTo.flush (hwrites : stream.WritesTo files file) :
    stream.Takes files file [] (stream.flush files) := by
  by_cases hheld : stream.held = []
  · rw [Stream.flush, if_pos hheld]
    exact ⟨rfl, hwrites, ⟨_, (files.store_read file).symm⟩, (List.append_nil _).symm, id⟩
  · obtain ⟨handle, disk, hwrite, hafter⟩ := hwrites.write stream.held
    obtain ⟨hnext, htaken, hfollows⟩ := hafter []
    simp only [Stream.flush, if_neg hheld, hwrite]
    exact ⟨rfl, hnext, ⟨disk, rfl⟩, htaken, hfollows⟩

theorem WritesTo.accept (hwrites : stream.WritesTo files file) {bytes : Bytes}
    (hroom : capacity ≤ bytes.length → stream.held = []) :
    stream.Takes files file bytes (stream.accept files bytes) := by
  by_cases hlarge : capacity ≤ bytes.length
  · obtain ⟨handle, disk, hwrite, hafter⟩ := hwrites.write bytes
    obtain ⟨hnext, htaken, hfollows⟩ := hafter stream.held
    simp only [Stream.accept, if_pos hlarge, hwrite]
    refine ⟨rfl, hnext, ⟨disk, rfl⟩, ?_, hfollows⟩
    rw [htaken, taken, hroom hlarge, List.append_nil, List.append_nil]
  · rw [Stream.accept, if_neg hlarge]
    exact ⟨rfl, ⟨hwrites.target_eq, hwrites.stored⟩, ⟨_, (files.store_read file).symm⟩,
      (List.append_assoc _ _ _).symm,
      fun hfollows => ⟨hfollows.target_eq, hfollows.stored, hfollows.position_eq⟩⟩

theorem WritesTo.append (hwrites : stream.WritesTo files file) (bytes : Bytes) :
    stream.Takes files file bytes (stream.append files bytes) := by
  by_cases hfull : capacity < stream.held.length + bytes.length
  · have hflush := hwrites.flush
    have haccept := @WritesTo.accept _ _ _ hflush.writesTo bytes fun _ => hwrites.held_flush
    obtain ⟨disk, hdisk⟩ := hflush.files_eq
    obtain ⟨disk', hdisk'⟩ := haccept.files_eq
    simp only [Stream.append, if_pos hfull, hflush.fault_eq]
    refine ⟨haccept.fault_eq, haccept.writesTo, ⟨disk', ?_⟩, ?_, haccept.follows ∘ hflush.follows⟩
    · rw [hdisk', hdisk, FileTree.store_store]
    · rw [haccept.taken_eq, hflush.taken_eq, List.append_nil]
  · rw [Stream.append, if_neg hfull]
    exact hwrites.accept fun hlarge => List.eq_nil_of_length_eq_zero (by omega)

/-! ## At the end of the file -/

theorem Takes.of_follows {bytes : Bytes} {after : Applied Stream}
    (htakes : stream.Takes files file bytes after) (hfollows : stream.Follows files file) :
    ∃ disk, after = ⟨after.state, files.store file disk, none⟩ ∧
      disk ++ after.state.held = files.read file ++ stream.held ++ bytes ∧
      after.state.Follows (files.store file disk) file := by
  obtain ⟨disk, hdisk⟩ := htakes.files_eq
  have hnext := htakes.follows hfollows
  have htaken := htakes.taken_eq
  rw [hnext.taken_eq, hfollows.taken_eq, hdisk, FileTree.read_store_self hfollows.stored] at htaken
  rw [hdisk] at hnext
  refine ⟨disk, ?_, htaken, hnext⟩
  rw [← hdisk, ← htakes.fault_eq]

theorem Follows.flush (hfollows : stream.Follows files file) :
    ∃ flushed, stream.flush files =
        ⟨flushed, files.store file (files.read file ++ stream.held), none⟩ ∧
      flushed.held = [] ∧
      flushed.Follows (files.store file (files.read file ++ stream.held)) file := by
  obtain ⟨disk, hflush, hdisk, hnext⟩ := hfollows.writesTo.flush.of_follows hfollows
  rw [hfollows.writesTo.held_flush, List.append_nil, List.append_nil] at hdisk
  subst hdisk
  exact ⟨_, hflush, hfollows.writesTo.held_flush, hnext⟩

theorem Follows.append (hfollows : stream.Follows files file) (bytes : Bytes) :
    ∃ appended disk, stream.append files bytes = ⟨appended, files.store file disk, none⟩ ∧
      disk ++ appended.held = files.read file ++ stream.held ++ bytes ∧
      appended.Follows (files.store file disk) file := by
  obtain ⟨disk, happend, hdisk, hnext⟩ := (hfollows.writesTo.append bytes).of_follows hfollows
  exact ⟨_, disk, happend, hdisk, hnext⟩

end Stream

end LogRelay
