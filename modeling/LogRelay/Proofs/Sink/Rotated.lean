import LogRelay.Proofs.Files.Items
import LogRelay.Proofs.Sink.Partition

/-!
# Rotations that succeed

A rotation that succeeds raises the whole row of slots and empties the path. So everything below the greatest
number moves up by one, with all that is below it, gaps move along, an empty file stands at the path, and
nothing else changes.
-/

namespace LogRelay

namespace FileTree

/-- What a slot holds that holds what stood in another slot, if any, at the beginning. -/
def itemsFrom (before : FileTree) (path : List Char) : Option Nat → Location → Option Item
  | none, _ => none
  | some origin, below => before.itemsAt (Path.numbered path origin) below

variable {before tree : FileTree} {path : List Char} {folder : List Path.Segment} {name : Path.Segment}
  {row : Row}

theorem itemsFrom_slots (tree : FileTree) (path : List Char) (number : Nat) :
    tree.itemsFrom path (tree.slots path number) = tree.itemsAt (Path.numbered path number) := by
  rw [slots]
  split
  · rfl
  · next hpresent =>
    rw [itemsAt_of_not_present hpresent]
    rfl

namespace Rearranged

variable (hrearranged : Rearranged before tree path row)
include hrearranged

theorem read_eq : tree.read = before.read := by
  funext number
  rw [read, read, hrearranged.contents_eq]

theorem item?_slot {number : Nat} (hfits : Fits (Path.numbered path number)) (below : Location) :
    tree.item? (before.spot (Path.numbered path number) ++ below) =
      (row number).bind fun origin =>
        before.item? (before.spot (Path.numbered path origin) ++ below) := by
  have hslot := hrearranged.find?_slot number hfits below
  cases hrow : row number with
  | none =>
      rw [hrow, Option.bind_none] at hslot
      rw [Option.bind_none, item?_eq_none_iff, hslot]
  | some origin =>
      rw [hrow, Option.bind_some] at hslot
      exact item?_congr hslot fun found _ => congrFun hrearranged.read_eq found

/-- Outside the slots that hold something else, the items are the same. -/
theorem item?_eq {location : Location}
    (hoff : ∀ number, Fits (Path.numbered path number) →
      before.spot (Path.numbered path number) <+: location → row number = before.slots path number)
    (hsound : before.Sound) (hpath : Path.EndsIn path folder name) :
    tree.item? location = before.item? location := by
  by_cases hslot : ∃ number, Fits (Path.numbered path number) ∧
      before.spot (Path.numbered path number) <+: location
  · obtain ⟨number, hfits, below, rfl⟩ := hslot
    rw [hrearranged.item?_slot hfits, hoff number hfits (List.prefix_append _ _),
      ← (hsound.rearranged hpath).item?_slot hfits]
  · apply item?_congr
    · apply hrearranged.elsewhere
      intro number hfits hbegins
      exact hslot ⟨number, hfits, hbegins⟩
    · exact fun found _ => congrFun hrearranged.read_eq found

/-- Emptying the first slot leaves the others with the items of their origins. -/
theorem itemsAt_of_emptied (hsound : before.Sound) (hpath : Path.EndsIn path folder name)
    {emptied : FileTree} {target : Target} (hemptied : Emptied tree emptied (tree.spot path) target)
    {number : Nat} (hpos : 0 < number) :
    emptied.itemsAt (Path.numbered path number) = before.itemsFrom path (row number) := by
  obtain ⟨folder', hends, -⟩ := hpath.numbered number
  by_cases hfits : Fits (Path.numbered path number)
  · funext below
    have hoff : before.spot (Path.numbered path number) ++ below ≠ tree.spot path := by
      intro hsame
      have hzero : before.spot (Path.numbered path number) <+: before.spot (Path.numbered path 0) :=
        ⟨below, hsame.trans (hrearranged.spot_eq 0)⟩
      rw [before.isPrefix_spot_iff hpath] at hzero
      omega
    rw [hemptied.sound.itemsAt_eq hends hfits, hemptied.spot_eq, hrearranged.spot_eq,
      hemptied.elsewhere _ hoff, hrearranged.item?_slot hfits]
    cases horigin : row number with
    | none => rfl
    | some origin =>
        obtain ⟨folder'', hends', -⟩ := hpath.numbered origin
        exact (hsound.itemsAt_eq hends' (hrearranged.stands number origin horigin).1 below).symm
  · have hnone : row number = none := by
      rw [← Option.not_isSome_iff_eq_none]
      exact fun hrow => hfits (hrearranged.fits number hrow)
    have habsent : ¬emptied.present (Path.numbered path number) = true := by
      rw [hemptied.sound.present_iff hends]
      exact fun hboth => hfits hboth.1
    rw [hnone, itemsAt_of_not_present habsent]
    rfl

end Rearranged

end FileTree

namespace Sink

open FileTree

variable {sink : Sink} {before moved : FileTree} {folder : List Path.Segment} {name : Path.Segment}

/-! ## The whole rotation -/

/-- What a rotation that succeeds makes of a tree; the target is what is open after it. -/
structure Rotates (sink : Sink) (before after : FileTree) (target : Target) : Prop where
  /-- What is present below the greatest number moves up by one, with everything below it. -/
  moved : ∀ number < sink.maxFiles, before.present (sink.rotatedPath number) = true →
    after.itemsAt (sink.rotatedPath (number + 1)) = before.itemsAt (sink.rotatedPath number)
  /-- A gap moves up by one, -/
  absent : ∀ number, number + 1 < sink.maxFiles → before.present (sink.rotatedPath number) = false →
    after.present (sink.rotatedPath (number + 1)) = false
  /-- but takes nothing from the greatest number. -/
  kept : ∀ number, number + 1 = sink.maxFiles → before.present (sink.rotatedPath number) = false →
    after.itemsAt (sink.rotatedPath (number + 1)) = before.itemsAt (sink.rotatedPath (number + 1))
  /-- What stands at greater numbers stays. -/
  larger : ∀ number, sink.maxFiles < number →
    after.itemsAt (sink.rotatedPath number) = before.itemsAt (sink.rotatedPath number)
  /-- The path holds an empty file, -/
  emptied : (sink.maxFiles = 0 → ∀ device,
      before.itemsAt sink.path.toList [] ≠ some (.device device)) →
    after.itemsAt sink.path.toList = (Item.file []).alone
  /-- but without rotated files a device stays what it is. -/
  device : ∀ device, sink.maxFiles = 0 →
    before.itemsAt sink.path.toList [] = some (.device device) →
    after.itemsAt sink.path.toList = before.itemsAt sink.path.toList
  /-- The file is new, unless one was there and there are no rotated files. -/
  fresh : 0 < sink.maxFiles ∨ before.present sink.path.toList = false →
    target = .file before.contents.size
  /-- Without rotated files a file that was there stays the same file, and is emptied. -/
  same : ∀ file, sink.maxFiles = 0 → before.fileAt? sink.path.toList = some file →
    target = .file file ∧ after.fileAt? sink.path.toList = some file ∧ after.read file = []
  /-- The file at the path is the one that is open. -/
  opened : ∀ file, target = .file file → after.fileAt? sink.path.toList = some file
  /-- Nothing else changes. -/
  elsewhere : ∀ location,
    (∀ number ≤ sink.maxFiles, ¬before.Covers (sink.rotatedPath number) location) →
    after.item? location = before.item? location

section Emptied

variable {emptied : FileTree} {target : Target} (hsound : before.Sound)
  (hpath : Path.EndsIn sink.path.toList folder name)
  (hrearranged : Rearranged before moved sink.path.toList
    ((before.slots sink.path.toList).raiseAll sink.maxFiles))
  (hemptied : Emptied moved emptied (moved.spot sink.path.toList) target)
include hsound hpath hrearranged

theorem find?_of_moved (hfits : Fits sink.path.toList) :
    moved.find? (moved.spot sink.path.toList) =
      if sink.maxFiles = 0 then before.find? (before.spot sink.path.toList) else none := by
  have hzero := @Rearranged.find?_self _ _ _ _ hrearranged 0 hfits
  have hstart := @Rearranged.find?_self _ _ _ _ (hsound.rearranged hpath) 0 hfits
  cases hcount : sink.maxFiles with
  | zero =>
      rw [hcount] at hzero
      rw [if_pos rfl]
      exact hzero.trans hstart.symm
  | succ number =>
      rw [hcount, Row.raiseAll_self] at hzero
      rw [if_neg (Nat.succ_ne_zero number)]
      exact hzero

include hemptied

theorem target_cases (hfits : Fits sink.path.toList) :
    (sink.maxFiles = 0 ∧ before.find? (before.spot sink.path.toList) = some (.leaf target)) ∨
      (target = .file before.contents.size ∧
        (sink.maxFiles = 0 → before.find? (before.spot sink.path.toList) = none)) := by
  have hmoved := find?_of_moved hsound hpath hrearranged hfits
  obtain hfound | ⟨hvacant, htarget⟩ := hemptied.found
  · rw [hmoved] at hfound
    split at hfound
    · next hcount => exact .inl ⟨hcount, hfound⟩
    · exact absurd hfound (by simp)
  · refine .inr ⟨hrearranged.contents_eq ▸ htarget, fun hcount => ?_⟩
    rwa [hmoved, if_pos hcount] at hvacant

/-- What a rotated path holds after everything below it has moved up. -/
theorem target_eq_file (hfits : Fits sink.path.toList) (hcount : sink.maxFiles = 0) {file : Nat}
    (hfile : before.fileAt? sink.path.toList = some file) : target = .file file := by
  have hleaf := ((hsound.fileAt?_eq_some_iff hpath).1 hfile).2
  obtain ⟨-, hfound⟩ | ⟨-, hvacant⟩ := target_cases hsound hpath hrearranged hemptied hfits
  · simpa [hleaf] using hfound.symm
  · exact absurd (hleaf.symm.trans (hvacant hcount)) (by simp)

theorem itemsAt_succ {number : Nat} (hlt : number < sink.maxFiles) :
    emptied.itemsAt (sink.rotatedPath (number + 1)) =
      if before.present (sink.rotatedPath number) = true then before.itemsAt (sink.rotatedPath number)
      else if number + 1 = sink.maxFiles then before.itemsAt (sink.rotatedPath (number + 1))
      else fun _ => none := by
  have hitems := hrearranged.itemsAt_of_emptied hsound hpath hemptied (Nat.succ_pos number)
  rw [Row.raiseAll_succ hlt] at hitems
  refine hitems.trans ?_
  by_cases hpresent : before.present (sink.rotatedPath number) = true
  · have hsome : before.slots sink.path.toList number = some number := if_pos hpresent
    rw [if_pos hpresent, hsome]
    rfl
  · have hnone : before.slots sink.path.toList number = none := if_neg hpresent
    rw [if_neg hpresent, hnone, Option.isSome_none, if_neg Bool.false_ne_true]
    split
    · next hlast =>
      rw [← hlast]
      exact before.itemsFrom_slots sink.path.toList (number + 1)
    · rfl

/-- Outside the slots up to the greatest number nothing changes. -/
theorem item?_of_not_covers (hfits : Fits sink.path.toList)
    (hdirectory : moved.find? (moved.spot sink.path.toList).dropLast = some .directory)
    {location : Location}
    (hoff : ∀ number ≤ sink.maxFiles, ¬before.Covers (sink.rotatedPath number) location) :
    emptied.item? location = before.item? location := by
  have hspot : moved.spot sink.path.toList = before.spot sink.path.toList := hrearranged.spot_eq 0
  have hgreater : ∀ number, Fits (Path.numbered sink.path.toList number) →
      before.spot (Path.numbered sink.path.toList number) <+: location → sink.maxFiles < number := by
    intro number hnumberFits hbegins
    obtain ⟨folder', hends, -⟩ := hpath.numbered number
    have hthere : before.find? (before.spot (Path.numbered sink.path.toList number)).dropLast =
        some .directory := by
      rw [before.dropLast_spot_numbered hpath, ← hdirectory, hspot]
      exact (hrearranged.elsewhere _ fun other _ =>
        before.not_isPrefix_dropLast_spot hpath other).symm
    by_contra hle
    exact hoff number (by omega) (hsound.covers_of_isPrefix hends hnumberFits hthere hbegins)
  rw [hemptied.elsewhere]
  · apply hrearranged.item?_eq _ hsound hpath
    intro number hnumberFits hbegins
    exact Row.raiseAll_of_gt (hgreater number hnumberFits hbegins)
  · intro hsame
    have hpos := hgreater 0 hfits (hsame.trans hspot ▸ List.prefix_refl _)
    omega

/-- What moving everything up and emptying the path comes to. -/
theorem rotates_of_emptied (hfits : Fits sink.path.toList)
    (hdirectory : moved.find? (moved.spot sink.path.toList).dropLast = some .directory) :
    sink.Rotates before emptied target := by
  have hself := hemptied.itemsAt_self hpath hfits
  have hitems := @itemsAt_succ _ _ _ _ _ _ _ hsound hpath hrearranged hemptied
  have hbase : before.itemsAt sink.path.toList [] = before.item? (before.spot sink.path.toList) := by
    rw [hsound.itemsAt_eq hpath hfits, List.append_nil]
  have htarget := target_cases hsound hpath hrearranged hemptied hfits
  have hopened : ∀ file, target = .file file → emptied.fileAt? sink.path.toList = some file :=
    fun file hfile => hemptied.fileAt?_self hpath hfits hfile
  refine ⟨?_, ?_, ?_, ?_, ?_, ?_, ?_, ?_, hopened, ?_⟩
  · intro number hlt hpresent
    rw [hitems hlt, if_pos hpresent]
  · intro number hlt habsent
    obtain ⟨folder', hends, -⟩ := hpath.numbered (number + 1)
    have hnone := hitems (Nat.lt_of_succ_lt hlt)
    rw [habsent, if_neg Bool.false_ne_true, if_neg (Nat.ne_of_lt hlt)] at hnone
    exact (hemptied.sound.present_eq hends).trans (congrArg (fun items => (items []).isSome) hnone)
  · intro number hlast habsent
    rw [hitems (by omega), habsent, if_neg Bool.false_ne_true, if_pos hlast]
  · intro number hgt
    refine (hrearranged.itemsAt_of_emptied hsound hpath hemptied (by omega)).trans ?_
    rw [Row.raiseAll_of_gt hgt]
    exact before.itemsFrom_slots sink.path.toList number
  · intro hfile
    cases target with
    | file number => exact hself
    | device device =>
        obtain ⟨hcount, hfound⟩ | ⟨hnew, -⟩ := htarget
        · exact absurd (hbase.trans (item?_eq_device_iff.2 hfound)) (hfile hcount device)
        · exact absurd hnew (by simp)
  · intro device hcount hdevice
    rw [hbase] at hdevice
    have hleaf := item?_eq_device_iff.1 hdevice
    obtain ⟨-, hfound⟩ | ⟨-, hvacant⟩ := htarget
    · obtain rfl : target = .device device := by simpa [hleaf] using hfound.symm
      exact hself.trans (hsound.itemsAt_eq_alone hpath hfits (by simp [hleaf]) hdevice).symm
    · exact absurd (hleaf.symm.trans (hvacant hcount)) (by simp)
  · intro hnew
    obtain ⟨hcount, hfound⟩ | ⟨hfresh, -⟩ := htarget
    · have hpresent : before.present sink.path.toList = true :=
        (hsound.present_iff hpath).2 ⟨hfits, by simp [hfound]⟩
      rcases hnew with hpos | habsent
      · omega
      · exact absurd (hpresent.symm.trans habsent) (by simp)
    · exact hfresh
  · intro file hcount hfile
    have hsame := target_eq_file hsound hpath hrearranged hemptied hfits hcount hfile
    exact ⟨hsame, hopened file hsame, hemptied.read_eq file hsame⟩
  · exact fun location => item?_of_not_covers hsound hpath hrearranged hemptied hfits hdirectory

end Emptied

end Sink

/-- The exact effect of a rotation that succeeds. In any sound tree, if a sink whose path never goes up
rotates and nothing fails, then it writes to the start of what it has opened and counts no bytes. Compared
with the tree after the flush at the beginning, what was present below the greatest number has moved up by
one, gaps have moved along, an empty file stands at the path, and nothing else has changed. Without rotated
files the file that stood at the path is that empty file, and a device stays. -/
theorem Sink.rotate_moves_up {sink : Sink} {files : FileTree} (hsound : files.Sound)
    (hdescends : Path.above ∉ Path.split sink.path.toList)
    (hfault : (sink.rotate files).fault = none) :
    ∃ target,
      (sink.rotate files).state = { sink with stream := .ofHandle ⟨target, some 0⟩, size := 0 } ∧
        sink.Rotates (sink.stream.flush files).files (sink.rotate files).files target := by
  obtain ⟨hflushedSound, -⟩ := hsound.flush sink.stream
  have hflushFault : (sink.stream.flush files).fault = none := by
    by_contra hsome
    obtain ⟨fault, hsome⟩ := Option.ne_none_iff_exists'.1 hsome
    simp [rotate, hsome] at hfault
  obtain ⟨moved, handle, created, hmoved, hcreate, hrotate⟩ := rotate_ok
    (show sink.stream.flush files = ⟨(sink.stream.flush files).state, _, none⟩ by rw [← hflushFault])
    hfault
  obtain ⟨target, opened, hopen, -⟩ := FileTree.exists_target_of_create hcreate
  obtain ⟨folder, name, hpath⟩ := FileTree.endsIn_of_openTarget hdescends hopen
  have hrearranged := rearranged_moveAllUp hpath (hflushedSound.rearranged hpath) hmoved
  obtain ⟨target, rfl, hdirectory, hfits, hemptied⟩ :=
    hrearranged.sound.emptied_create hpath hcreate
  rw [hrotate]
  exact ⟨target, rfl, rotates_of_emptied hflushedSound hpath hrearranged hemptied hfits hdirectory⟩

/-- A sink on a device, and a rotation without rotated files: the device stays, and no regular file takes
its place. -/
theorem Sink.device_stays :
    let sink : Sink :=
      ⟨"app", "/dev/null", .text, 60, 0, .debug, .ofHandle ⟨.device .null, none⟩, 60⟩
    let rotated := sink.rotate FileTree.initial
    FileTree.initial.Sound ∧ Path.above ∉ Path.split sink.path.toList ∧ rotated.fault = none ∧
      rotated.files.itemsAt sink.path.toList [] = some (.device .null) ∧
      rotated.files.itemsAt sink.path.toList [] ≠ some (.file []) :=
  ⟨FileTree.sound_initial, by decide, by decide, by decide, by decide⟩

/-- A file that is rotated without rotated files stays the same file. -/
example :
    let sink := { Sink.small with
      maxFiles := 0, stream := ⟨⟨.file 0, none⟩, Utf8.bytes "line\n"⟩, size := 5 }
    let rotated := sink.rotate FileTree.withLog
    rotated.fault = none ∧ FileTree.withLog.fileAt? sink.path.toList = some 0 ∧
      rotated.files.fileAt? sink.path.toList = some 0 ∧ rotated.files.read 0 = [] ∧
      rotated.state.stream = .ofHandle ⟨.file 0, some 0⟩ := by
  decide +kernel

/-- The tree of the small sink with a directory at number one, nothing at number two and a file at number
three. -/
def FileTree.gapped : FileTree where
  entries :=
    (["home".toList, "app.3.log".toList], .leaf (.file 2)) ::
      (["home".toList, "app.1.log".toList, "note".toList], .leaf (.file 1)) ::
      (["home".toList, "app.1.log".toList], .directory) :: FileTree.withLog.entries
  contents := #[[], Utf8.bytes "kept", Utf8.bytes "old"]
  home := FileTree.withLog.home

theorem FileTree.sound_gapped : FileTree.gapped.Sound := by
  have hdirectory := @Sound.insert_directory _ sound_withLog ["home".toList, "app.1.log".toList] (by decide)
    (by decide)
  have hnote := @Sound.insert_file _ hdirectory ["home".toList, "app.1.log".toList, "note".toList]
    (by decide) (by decide) (by decide) (Utf8.bytes "kept")
  exact @Sound.insert_file _ hnote ["home".toList, "app.3.log".toList] (by decide) (by decide)
    (by decide) (Utf8.bytes "old")

/-- The file and the directory move up, and number three stays, as nothing stood at number two. -/
theorem Sink.gapped_moves_up :
    let line := Utf8.bytes "[1970-01-01 00:00:00.000] [info] one\n"
    let sink := { Sink.small with maxFiles := 3, stream := ⟨⟨.file 0, none⟩, line⟩, size := 37 }
    let rotated := sink.rotate FileTree.gapped
    rotated.fault = none ∧
      rotated.files.itemsAt (sink.rotatedPath 1) [] = some (.file line) ∧
      rotated.files.itemsAt (sink.rotatedPath 2) ["note".toList] = some (.file (Utf8.bytes "kept")) ∧
      rotated.files.itemsAt (sink.rotatedPath 3) [] = some (.file (Utf8.bytes "old")) ∧
      rotated.files.itemsAt (sink.rotatedPath 0) [] = some (.file []) := by
  intro line sink rotated
  have hfault : rotated.fault = none := by decide +kernel
  obtain ⟨target, -, hrotates⟩ := Sink.rotate_moves_up FileTree.sound_gapped (by decide) hfault
  have hfirst := congrFun (hrotates.moved 0 (by decide) (by decide +kernel)) []
  have hsecond := congrFun (hrotates.moved 1 (by decide) (by decide +kernel)) ["note".toList]
  have hthird := congrFun (hrotates.kept 2 rfl (by decide +kernel)) []
  have hbase := congrFun (hrotates.emptied fun hcount => absurd hcount (by decide)) []
  exact ⟨hfault, hfirst.trans (by decide +kernel), hsecond.trans (by decide +kernel),
    hthird.trans (by decide +kernel), hbase⟩

end LogRelay
