import LogRelay.Proofs.Sink.Rotation

/-!
# Opening a sink

A sink that opens finds the files of its path as they are: the directories it makes are not on its shelf,
and the file it makes is empty.
-/

namespace LogRelay

namespace FileTree

variable {tree made : FileTree} {path : List Char} {count : Nat}

/-- New directories above a path change nothing about the files on its shelf. -/
theorem Sound.shelf_of_extends (hsound : tree.Sound) {folder : List Path.Segment}
    {name : Path.Segment} (hpath : Path.EndsIn path folder name) (hfiles : tree.HoldsFiles path count)
    (hextends : Extends tree made (tree.spot path).dropLast) :
    made.Shelf path count ∧ made.row path = tree.row path := by
  have hfind : ∀ number, made.find? (made.spot (Path.numbered path number)) =
      tree.find? (tree.spot (Path.numbered path number)) := by
    intro number
    rw [hextends.spot_eq]
    exact hextends.find?_eq (tree.not_isPrefix_dropLast_spot hpath number)
  have hrow : made.row path = tree.row path := by
    funext number
    ext file
    rw [hextends.sound.row_eq_some_iff hpath, hsound.row_eq_some_iff hpath, hfind]
  refine ⟨⟨hextends.sound, ⟨folder, name, hpath⟩, ?_⟩, hrow⟩
  intro number hle hpresent
  rw [hextends.sound.present_numbered_iff hpath, hfind] at hpresent
  rw [hrow]
  exact hfiles number hle ((hsound.present_numbered_iff hpath).2 hpresent)

/-- Opening the file of a shelf leaves the contents of all files as they are. -/
theorem Shelf.logFiles_openTarget (hshelf : tree.Shelf path count) {target : Target}
    {opened : FileTree} (hopen : tree.openTarget path = .ok (target, opened)) :
    opened.logFiles path count = tree.logFiles path count := by
  obtain ⟨hopened, file, -, hrow, ⟨-, rfl⟩ | ⟨hnone, rfl, hcontents⟩⟩ := hshelf.openTarget_cases hopen
  · rfl
  · have hzero : opened.row path 0 = some tree.contents.size := by
      rw [hrow, Function.update_self]
    have hempty : opened.contentAt path = tree.contentAt path := by
      have hvacant : tree.fileAt? path = none := hnone
      rw [contentAt_of_row hzero, contentAt, hvacant]
      simp [read, hcontents, Array.getD_eq_getD_getElem?]
    have hshelved : (opened.row path).shelved count = (tree.row path).shelved count := by
      apply Row.shelved_congr
      intro number hpos _
      rw [hrow, Function.update_of_ne (by omega)]
    have hrotated : opened.rotatedFiles path count = tree.rotatedFiles path count := by
      rw [rotatedFiles, rotatedFiles, hshelved]
      apply List.map_congr_left
      intro other hother
      obtain ⟨number, -, -, hnumber⟩ := Row.mem_shelved hother
      exact read_of_contents_eq_push hcontents (hshelf.lt_size_of_row hnumber)
    rw [logFiles, logFiles, hrotated, hempty]

end FileTree

namespace Sink

variable {name path : String} {format : LogFormat} {maxSize maxFiles : Nat} {files opened : FileTree}
  {sink : Sink}

/-- What a sink does to open. -/
theorem start_ok (hstart : start name path format maxSize maxFiles files = (opened, .ok sink)) :
    ∃ made target, (if Path.directory path = "" then (files, none)
        else files.makeDirectories (Path.directory path).toList) = (made, none) ∧
      made.openTarget path.toList = .ok (target, opened) ∧
      sink = ⟨name, path, format, maxSize, maxFiles, .debug, .ofHandle ⟨target, none⟩,
        opened.size ⟨target, none⟩⟩ := by
  unfold start at hstart
  simp only at hstart
  generalize hmade : (if Path.directory path = "" then (files, none)
    else files.makeDirectories (Path.directory path).toList) = made at hstart
  obtain ⟨made, fault⟩ := made
  cases fault with
  | some fault => simp at hstart
  | none =>
      simp only [FileTree.openAppend] at hstart
      cases hopen : made.openTarget path.toList with
      | error fault => simp [hopen, Except.map] at hstart
      | ok result =>
          simp only [hopen, Except.map] at hstart
          obtain ⟨rfl, hsink⟩ := Prod.mk.inj hstart
          exact ⟨made, result.1, rfl, hopen, (Except.ok.inj hsink).symm⟩

/-- A sink that cannot be opened leaves the contents of all files as they are. -/
theorem contents_of_start_error {left : FileTree} {fault : IoFault}
    (hstart : start name path format maxSize maxFiles files = (left, .error fault)) :
    left.contents = files.contents := by
  have hmade : (if Path.directory path = "" then (files, none)
      else files.makeDirectories (Path.directory path).toList).1.contents = files.contents := by
    split
    · rfl
    · exact files.contents_makeDirectories _
  rw [← hmade]
  unfold start at hstart
  simp only at hstart
  split at hstart
  · rw [← (Prod.mk.inj hstart).1]
  · split at hstart
    · rw [← (Prod.mk.inj hstart).1]
    · exact absurd (Prod.mk.inj hstart).2 (by simp)

theorem directory_toList (hne : Path.directory path ≠ "") :
    (Path.directory path).toList = Path.parent path.toList := by
  simp only [Path.directory] at hne ⊢
  split at hne
  · exact absurd rfl hne
  · exact String.toList_ofList

theorem extends_of_made {made : FileTree} (hsound : files.Sound) {folder : List Path.Segment}
    {segment : Path.Segment} (hpath : Path.EndsIn path.toList folder segment)
    (hmade : (if Path.directory path = "" then (files, none)
      else files.makeDirectories (Path.directory path).toList) = (made, none)) :
    FileTree.Extends files made (files.spot path.toList).dropLast := by
  split at hmade
  · obtain ⟨rfl, -⟩ := Prod.mk.inj hmade
    exact .refl hsound
  · next hdirectory =>
    have hextends := hsound.extends_makeDirectories hpath
    rw [directory_toList hdirectory] at hmade
    rwa [hmade] at hextends

/-- A sink opens the file of a shelf, and the files on the shelf are those of its path before. -/
theorem shelf_start {count : Nat} (hsound : files.Sound)
    (hdescends : Path.above ∉ Path.split path.toList) (hfiles : files.HoldsFiles path.toList count)
    (hstart : start name path format maxSize maxFiles files = (opened, .ok sink)) :
    opened.Shelf path.toList count ∧
      opened.logFiles path.toList count = files.logFiles path.toList count ∧
      ∃ file, opened.row path.toList 0 = some file ∧
        sink = ⟨name, path, format, maxSize, maxFiles, .debug, .ofHandle ⟨.file file, none⟩,
          (opened.read file).length⟩ := by
  obtain ⟨made, target, hmade, hopen, rfl⟩ := start_ok hstart
  obtain ⟨folder, segment, hpath⟩ := FileTree.endsIn_of_openTarget hdescends hopen
  have hextends := extends_of_made hsound hpath hmade
  obtain ⟨hshelf, hrow⟩ := hsound.shelf_of_extends hpath hfiles hextends
  obtain ⟨hopened, file, rfl, hopenedRow, -⟩ := hshelf.openTarget_cases hopen
  have hzero : opened.row path.toList 0 = some file := by
    rw [hopenedRow, Function.update_self]
  refine ⟨hopened, ?_, file, hzero, rfl⟩
  have hread : files.read = made.read := by
    funext other
    rw [FileTree.read, FileTree.read, hextends.contents_eq]
  have hfileAt : files.fileAt? path.toList = made.fileAt? path.toList :=
    (congrFun hrow 0).symm
  rw [hshelf.logFiles_openTarget hopen, FileTree.logFiles, FileTree.logFiles, FileTree.rotatedFiles,
    FileTree.rotatedFiles, FileTree.contentAt, FileTree.contentAt, hrow, hread, hfileAt]

/-- An opened sink is moored, and its files are those of its path before. -/
theorem moored_start (hsound : files.Sound) (hdescends : Path.above ∉ Path.split path.toList)
    (hfiles : files.HoldsFiles path.toList maxFiles)
    (hstart : start name path format maxSize maxFiles files = (opened, .ok sink))
    (events : Array Event) :
    let state : SinkState := ⟨sink, opened, events⟩
    state.Moored ∧ state.logFiles = files.logFiles path.toList maxFiles ∧
      sink.maxSize = maxSize := by
  intro state
  obtain ⟨hopened, hlog, file, hzero, rfl⟩ := shelf_start hsound hdescends hfiles hstart
  have hactive : state.active = opened.read file := by
    change opened.contentAt path.toList ++ [] = _
    rw [FileTree.contentAt_of_row hzero, List.append_nil]
  refine ⟨⟨hopened, ⟨file, hzero, rfl, hopened.lt_size_of_row hzero, .inl rfl⟩, ?_⟩, ?_, rfl⟩
  · exact (congrArg List.length hactive).symm
  · rw [← hlog]
    change opened.rotatedFiles path.toList maxFiles ++ [opened.contentAt path.toList ++ []] = _
    rw [List.append_nil]
    rfl

/-- A sink that opens where its file already is changes nothing. -/
theorem start_of_row {count file : Nat} (hshelf : files.Shelf path.toList count)
    (hfile : files.row path.toList 0 = some file) :
    start name path format maxSize maxFiles files =
      (files, .ok ⟨name, path, format, maxSize, maxFiles, .debug, .ofHandle ⟨.file file, none⟩,
        (files.read file).length⟩) := by
  obtain ⟨folder, segment, hpath⟩ := hshelf.endsIn
  obtain ⟨hfits, hleaf⟩ := (hshelf.sound.row_eq_some_iff hpath).1 hfile
  rw [FileTree.Shelf.numbered_zero] at hfits hleaf
  have hthere : (files.find? (files.spot path.toList)).isSome := by
    rw [hleaf]
    rfl
  have hmade : (if Path.directory path = "" then (files, none)
      else files.makeDirectories (Path.directory path).toList) = (files, none) := by
    split
    · rfl
    · next hdirectory =>
      have hne : Path.parent path.toList ≠ [] := by
        rw [← directory_toList hdirectory]
        exact fun hnil => hdirectory (String.toList_eq_nil_iff.1 hnil)
      rw [directory_toList hdirectory]
      exact hshelf.sound.makeDirectories_parent hpath hfits hthere hne
  have hlocate := hshelf.sound.locate_eq hpath hfits (hshelf.sound.directory_of_spot hpath hthere)
  have hopen : files.openTarget path.toList = .ok (.file file, files) := by
    simp [FileTree.openTarget, hlocate, hleaf]
  simp only [start, hmade, FileTree.openAppend, hopen]
  rfl

end Sink

end LogRelay
