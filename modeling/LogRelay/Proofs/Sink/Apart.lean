import LogRelay.Proofs.Files.Locate
import LogRelay.Sink

/-!
# Rotated paths never meet

The rotated paths of a file lead to different names in one directory, in every tree and however the path is
written: it may go up, repeat slashes or end in some. So nothing that a rotation moves takes the place of
anything but what has the next number.
-/

namespace LogRelay

open LogRelay.Path (numbered nameAt)

namespace FileTree

/-! ## Where slots lie -/

/-- The location that a path leads to, if it leads anywhere. -/
def leads? (tree : FileTree) (path : List Char) : Option Location :=
  match tree.locate path with
  | .ok (.directory location) => some location
  | .ok (.named location _) => some location
  | .error _ => none

variable {tree : FileTree} {path : List Char} {name : Path.Segment}

/-- A path whose last name can be the name of a file leads there, in the directory that the names before it
lead to. -/
theorem directory_of_leads {location : Location} {folder : List Path.Segment}
    (hnames : Path.names path = folder ++ [name]) (hname : Path.isName name = true)
    (hleads : tree.leads? path = some location) :
    ∃ directory, tree.walk (tree.origin path) folder = .ok directory ∧
      location = directory ++ [name] := by
  have hfilter : ((Path.split path).filter fun segment => segment ≠ []).filter
      (fun segment => !Path.isIdle segment) = folder ++ [name] := (filter_names _).trans hnames
  unfold leads? at hleads
  split at hleads
  · next found hlocate =>
    obtain rfl := Option.some.inj hleads
    obtain ⟨-, -, hsegments⟩ := locateSegments_of_locate hlocate
    have hwalk := locateSegments_directory hsegments
    rw [← walk_filter, hfilter] at hwalk
    exact walk_concat hname hwalk
  · next found slash hlocate =>
    obtain rfl := Option.some.inj hleads
    obtain ⟨-, -, hsegments⟩ := locateSegments_of_locate hlocate
    obtain ⟨front, last, directory, hfront, hhere, -, hdirectory, -, rfl, -⟩ :=
      locateSegments_named hsegments
    have hmem : last ∈ (Path.split path).filter fun segment => segment ≠ [] := by
      rw [hfront]
      exact List.mem_append_right _ (List.mem_singleton_self last)
    have hsome : last ≠ [] := of_decide_eq_true (List.mem_filter.1 hmem).2
    have hidle : Path.isIdle last = false := by simp [Path.isIdle, hhere, hsome]
    rw [hfront, List.filter_append, List.filter_cons_of_pos (by simp [hidle]), List.filter_nil] at hfilter
    obtain ⟨hfolder, hlast⟩ := List.append_inj' hfilter rfl
    obtain rfl := (List.cons.inj hlast).1
    rw [← walk_filter, hfolder] at hdirectory
    exact ⟨directory, hdirectory, rfl⟩
  · exact absurd hleads (by simp)

theorem directory_of_leads_numbered (hname : Path.fileName? path = some name) {number : Nat}
    {location : Location} (hleads : tree.leads? (numbered path number) = some location) :
    ∃ directory, tree.walk (tree.origin path) (Path.names path).dropLast = .ok directory ∧
      location = directory ++ [nameAt name number] := by
  have horigin : tree.origin (numbered path number) = tree.origin path := by
    simp only [origin, Path.head?_numbered hname]
  have hisName := Path.isName_nameAt (Path.isName_of_fileName? hname) number
  rw [← horigin]
  exact directory_of_leads (Path.names_numbered hname number) hisName hleads

/-- A slot leads to a location that no other slot leads to. -/
structure Alone (tree : FileTree) (path : List Char) (number : Nat) (location : Location) : Prop where
  /-- The slot leads there. -/
  leads : tree.leads? (numbered path number) = some location
  /-- Whatever slot leads there is this one. -/
  only : ∀ other, tree.leads? (numbered path other) = some location → other = number

theorem alone_of_leads (hname : Path.fileName? path = some name) {number : Nat} {location : Location}
    (hleads : tree.leads? (numbered path number) = some location) :
    tree.Alone path number location := by
  refine ⟨hleads, fun other hother => ?_⟩
  obtain ⟨directory, hwalk, rfl⟩ := directory_of_leads_numbered hname hleads
  obtain ⟨otherDirectory, hotherWalk, hsame⟩ := directory_of_leads_numbered hname hother
  obtain ⟨-, hlast⟩ := List.append_inj' hsame rfl
  exact Path.nameAt_injective (List.cons.inj hlast).1.symm

/-! ## What moves where -/

/-- What some moves among the slots below a number make of a tree: each removes or replaces only what one slot
leads to, and what replaces it is what the slot before it leads to. -/
inductive Rises (path : List Char) (count : Nat) : FileTree → FileTree → Prop where
  | rest (tree : FileTree) : Rises path count tree tree
  /-- What stands in a slot makes way. -/
  | clear {tree after : FileTree} {number : Nat} {target : Location} (hlt : number < count)
      (htarget : tree.Alone path (number + 1) target) (hrest : Rises path count (tree.erase target) after) :
      Rises path count tree after
  /-- What stands in the slot before takes its place. -/
  | move {tree after : FileTree} {number : Nat} {source target : Location} (hlt : number < count)
      (hsource : tree.Alone path number source) (htarget : tree.Alone path (number + 1) target)
      (hrest : Rises path count (tree.move source target) after) : Rises path count tree after

variable {count : Nat} {before middle after : FileTree}

theorem Rises.trans (hfirst : Rises path count before middle) (hsecond : Rises path count middle after) :
    Rises path count before after := by
  induction hfirst with
  | rest tree => exact hsecond
  | clear hlt htarget _ induction => exact .clear hlt htarget (induction hsecond)
  | move hlt hsource htarget _ induction => exact .move hlt hsource htarget (induction hsecond)

theorem leads_of_removeFile (hremove : before.removeFile path = .ok after) :
    ∃ location, before.leads? path = some location ∧ after = before.erase location := by
  unfold removeFile at hremove
  split at hremove
  · exact absurd hremove (by simp)
  · exact absurd hremove (by simp [fail])
  · next location slash hlocate =>
    refine ⟨location, by simp [leads?, hlocate], ?_⟩
    split at hremove
    · exact absurd hremove (by simp [fail])
    · exact absurd hremove (by simp [fail])
    · split at hremove
      · exact absurd hremove (by simp [fail])
      · exact (Except.ok.inj hremove).symm

/-- A rename that succeeds moves what one path leads to to where another leads, unless both lead to the same
location. -/
theorem leads_of_rename {source target : List Char} (hrename : before.rename source target = .ok after) :
    ∃ start stop, before.leads? source = some start ∧ before.leads? target = some stop ∧
      (start ≠ stop → after = before.move start stop) := by
  unfold rename at hrename
  split at hrename
  · exact absurd hrename (by simp)
  · exact absurd hrename (by simp)
  · next start _ stop _ hsource htarget =>
    refine ⟨start, stop, by simp [leads?, hsource], by simp [leads?, htarget], fun hne => ?_⟩
    simp only [if_neg hne] at hrename
    split at hrename
    · exact absurd hrename (by simp [fail])
    · exact absurd hrename (by simp [fail])
    · exact (Except.ok.inj hrename).symm
    · exact absurd hrename (by simp [fail])
    · exact absurd hrename (by simp [fail])
    · split at hrename
      · exact absurd hrename (by simp [fail])
      · exact (Except.ok.inj hrename).symm
  · exact absurd hrename (by simp [fail])

theorem Rises.andThen {first : Attempt} {second : FileTree → Attempt}
    (hfirst : Rises path count before first.1)
    (hsecond : ∀ tree, Rises path count tree (second tree).1) :
    Rises path count before (first.andThen second).1 := by
  unfold Attempt.andThen
  split
  · exact hfirst.trans (hsecond _)
  · exact hfirst

end FileTree

namespace Sink

open FileTree

variable {sink : Sink} {name : Path.Segment}

/-- Moving one slot up replaces what stands in the next slot, if anything. -/
theorem rises_moveUp (hname : Path.fileName? sink.path.toList = some name) {number count : Nat}
    (hlt : number < count) (tree : FileTree) :
    Rises sink.path.toList count tree (sink.moveUp number tree).1 := by
  rw [moveUp]
  split
  · refine Rises.andThen ?_ fun cleared => ?_
    · split
      · unfold FileTree.attempt
        split
        · next removed hremove =>
          obtain ⟨target, hleads, rfl⟩ := leads_of_removeFile hremove
          exact .clear hlt (alone_of_leads hname hleads) (.rest _)
        · exact .rest tree
      · exact .rest tree
    · unfold FileTree.attempt
      split
      · next renamed hrename =>
        obtain ⟨source, target, hsource, htarget, hmove⟩ := leads_of_rename hrename
        have hsourceAlone := alone_of_leads hname hsource
        have hne : source ≠ target := by
          rintro rfl
          exact absurd (hsourceAlone.only _ htarget) (Nat.succ_ne_self number)
        obtain rfl := hmove hne
        exact .move hlt hsourceAlone (alone_of_leads hname htarget) (.rest _)
      · exact .rest cleared
  · exact .rest tree

theorem rises_moveAllUp (hname : Path.fileName? sink.path.toList = some name) {number count : Nat}
    (hle : number ≤ count) (tree : FileTree) :
    Rises sink.path.toList count tree (sink.moveAllUp number tree).1 := by
  induction number generalizing tree with
  | zero => exact .rest tree
  | succ number induction =>
      rw [moveAllUp]
      exact (rises_moveUp hname hle tree).andThen fun moved => induction (Nat.le_of_succ_le hle) moved

theorem rises_rotate (hname : Path.fileName? sink.path.toList = some name) (files : FileTree) :
    ∃ moved, Rises sink.path.toList sink.maxFiles (sink.stream.flush files).files moved ∧
      ((sink.rotate files).files = moved ∨
        ∃ handle, moved.create sink.path.toList = .ok (handle, (sink.rotate files).files)) := by
  have hmoved := rises_moveAllUp hname (Nat.le_refl sink.maxFiles) (sink.stream.flush files).files
  simp only [rotate]
  split
  · exact ⟨_, .rest _, .inl rfl⟩
  · split
    · exact ⟨_, hmoved, .inl rfl⟩
    · split
      · exact ⟨_, hmoved, .inl rfl⟩
      · next handle created hcreate => exact ⟨_, hmoved, .inr ⟨handle, hcreate⟩⟩

end Sink

/-- Rotated paths never meet. If a path has a file name, then any two of its rotated paths, the path itself
being number zero, have the same directory and different file names. Whatever the tree is, a rotation of the
file at that path removes and replaces only what stands at a number from one up, each time something to which
no other of these paths leads, and what takes its place is what stood at the number before. -/
theorem Path.rotated_paths_never_meet {path : String} {name : Path.Segment}
    (hname : Path.fileName? path.toList = some name) :
    (∀ first second, first ≠ second →
      Path.parent (Path.rotated path first).toList = Path.parent (Path.rotated path second).toList ∧
      ∃ firstName secondName, Path.fileName? (Path.rotated path first).toList = some firstName ∧
        Path.fileName? (Path.rotated path second).toList = some secondName ∧ firstName ≠ secondName) ∧
    ∀ (sink : Sink) (files : FileTree), sink.path = path →
      ∃ moved, FileTree.Rises path.toList sink.maxFiles (sink.stream.flush files).files moved ∧
        ((sink.rotate files).files = moved ∨
          ∃ handle, moved.create path.toList = .ok (handle, (sink.rotate files).files)) := by
  simp only [Path.rotated, String.toList_ofList]
  constructor
  · intro first second hne
    refine ⟨?_, nameAt name first, nameAt name second, Path.fileName?_numbered hname first,
      Path.fileName?_numbered hname second, fun hsame => hne (Path.nameAt_injective hsame)⟩
    rw [Path.parent_numbered hname, Path.parent_numbered hname]
  · rintro sink files rfl
    exact Sink.rises_rotate hname files

/-- A hidden file whose name has two dots, behind a doubled slash and in front of segments that count for
nothing. -/
theorem Path.hidden_rotated_paths_never_meet :
    let path := "logs//.app.log/./"
    Path.fileName? path.toList = some ".app.log".toList ∧ Path.rotated path 2 = "logs/.app.2.log" ∧
      Path.parent path.toList = Path.parent "logs/.app.2.log".toList ∧
      ∃ firstName secondName, Path.fileName? path.toList = some firstName ∧
        Path.fileName? "logs/.app.2.log".toList = some secondName ∧ firstName ≠ secondName := by
  intro path
  have hname : Path.fileName? path.toList = some ".app.log".toList := by decide
  have hbase : Path.rotated path 0 = path := by decide
  have hsecond : Path.rotated path 2 = "logs/.app.2.log" := by decide +kernel
  obtain ⟨hpaths, -⟩ := Path.rotated_paths_never_meet hname
  have hapart := hpaths 0 2 (by decide)
  rw [hbase, hsecond] at hapart
  exact ⟨hname, hsecond, hapart⟩

end LogRelay
