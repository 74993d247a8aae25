import LogRelay.Proofs.Sink.Rearranged

/-!
# The shelf of a sink

A sink keeps its rotated files beside its file, in the directory of its path. On such a shelf a sink that
moves its files up raises the row of file numbers and leaves every content alone, and the file it then
opens is empty and new to the row.
-/

namespace LogRelay

namespace FileTree

/-- The regular files at the rotated paths of a path. -/
def row (tree : FileTree) (path : List Char) : Row := fun number =>
  tree.fileAt? (Path.numbered path number)

/-- What is present at the rotated paths of a path up to a number is regular files. -/
def HoldsFiles (tree : FileTree) (path : List Char) (count : Nat) : Prop :=
  ∀ number ≤ count, tree.present (Path.numbered path number) = true →
    (tree.row path number).isSome

variable {tree : FileTree} {path : List Char} {folder : List Path.Segment} {name : Path.Segment}

theorem walk_store (tree : FileTree) (file : Nat) (bytes : Bytes) (start : Location)
    (segments : List Path.Segment) :
    (tree.store file bytes).walk start segments = tree.walk start segments := by
  induction segments generalizing start with
  | nil => rfl
  | cons segment rest induction =>
      simp only [walk, induction]
      rfl

theorem locate_store (tree : FileTree) (file : Nat) (bytes : Bytes) (path : List Char) :
    (tree.store file bytes).locate path = tree.locate path := by
  simp only [locate, locateSegments, walk_store]
  rfl

@[simp]
theorem present_store (tree : FileTree) (file : Nat) (bytes : Bytes) (path : List Char) :
    (tree.store file bytes).present path = tree.present path := by
  simp only [present, locate_store]
  rfl

@[simp]
theorem row_store (tree : FileTree) (file : Nat) (bytes : Bytes) (path : List Char) :
    (tree.store file bytes).row path = tree.row path := by
  funext number
  simp only [row, fileAt?, locate_store]
  rfl

theorem Sound.row_eq_some_iff (hsound : tree.Sound) (hpath : Path.EndsIn path folder name)
    {number file : Nat} :
    tree.row path number = some file ↔
      Fits (Path.numbered path number) ∧
        tree.find? (tree.spot (Path.numbered path number)) = some (.leaf (.file file)) := by
  obtain ⟨folder', hends, -⟩ := hpath.numbered number
  exact hsound.fileAt?_eq_some_iff hends

/-- Rearranging slots rearranges the regular files at them. -/
theorem Rearranged.row_eq {before : FileTree} {slots : Row}
    (hrearranged : Rearranged before tree path slots) (hsound : before.Sound)
    (hpath : Path.EndsIn path folder name) :
    tree.row path = slots.through (before.row path) := by
  funext number
  ext file
  rw [hrearranged.sound.row_eq_some_iff hpath, Row.through]
  cases hslot : slots number with
  | none =>
      simp only [Option.bind_none, reduceCtorEq, iff_false]
      rintro ⟨hfits, hfile⟩
      rw [hrearranged.find?_self hfits, hslot, Option.bind_none] at hfile
      exact absurd hfile (by simp)
  | some origin =>
      have hfits := hrearranged.fits number (by simp [hslot])
      rw [hrearranged.find?_self hfits, hslot, Option.bind_some, Option.bind_some,
        hsound.row_eq_some_iff hpath]
      exact and_congr_left fun _ =>
        iff_of_true hfits (hrearranged.stands number origin hslot).1

/-- A sound tree with regular files, or nothing, at the rotated paths of a path up to a number. -/
structure Shelf (tree : FileTree) (path : List Char) (count : Nat) : Prop where
  /-- The tree is sound. -/
  sound : tree.Sound
  /-- The path ends in a name. -/
  endsIn : ∃ folder name, Path.EndsIn path folder name
  /-- Only regular files are present. -/
  holdsFiles : tree.HoldsFiles path count

namespace Shelf

variable {count : Nat} (hshelf : tree.Shelf path count)
include hshelf

theorem row_injective {first second file : Nat} (hfirst : tree.row path first = some file)
    (hsecond : tree.row path second = some file) : first = second := by
  obtain ⟨folder, name, hpath⟩ := hshelf.endsIn
  apply tree.spot_numbered_injective hpath
  exact hshelf.sound.distinct _ _ file ((hshelf.sound.row_eq_some_iff hpath).1 hfirst).2
    ((hshelf.sound.row_eq_some_iff hpath).1 hsecond).2

theorem lt_size_of_row {number file : Nat} (hfile : tree.row path number = some file) :
    file < tree.contents.size := by
  obtain ⟨folder, name, hpath⟩ := hshelf.endsIn
  exact hshelf.sound.stored _ file ((hshelf.sound.row_eq_some_iff hpath).1 hfile).2

omit hshelf in
@[simp]
theorem numbered_zero (path : List Char) : Path.numbered path 0 = path := rfl

/-- A sound tree with one file more, at a vacant spot for number zero, has that file in the row. -/
theorem update_of_find? {changed : FileTree} (hsound : changed.Sound)
    (hhome : changed.home = tree.home) (hfits : Fits path) {file : Nat}
    (hfind : ∀ other, changed.find? other =
      if other = tree.spot path then some (.leaf (.file file)) else tree.find? other) :
    changed.Shelf path count ∧
      changed.row path = Function.update (tree.row path) 0 (some file) := by
  obtain ⟨folder, name, hpath⟩ := hshelf.endsIn
  have hother : ∀ number, changed.find? (changed.spot (Path.numbered path number)) =
      if number = 0 then some (.leaf (.file file))
      else tree.find? (tree.spot (Path.numbered path number)) := by
    intro number
    have hspot : changed.spot (Path.numbered path number) = tree.spot (Path.numbered path number) := by
      rw [spot, spot, origin, origin, hhome]
    have hiff : tree.spot (Path.numbered path number) = tree.spot path ↔ number = 0 :=
      ⟨fun hsame => tree.spot_numbered_injective hpath hsame, fun hzero => by rw [hzero]; rfl⟩
    rw [hspot, hfind]
    simp only [hiff]
  have hrow : changed.row path = Function.update (tree.row path) 0 (some file) := by
    funext number
    ext found
    rw [hsound.row_eq_some_iff hpath, hother, Function.update_apply]
    split
    · next hzero =>
      subst hzero
      simp [hfits]
    · exact (hshelf.sound.row_eq_some_iff hpath).symm
  refine ⟨⟨hsound, hshelf.endsIn, ?_⟩, hrow⟩
  intro number hle hpresent
  obtain ⟨hnumberFits, hthere⟩ := (hsound.present_numbered_iff hpath).1 hpresent
  rw [hother] at hthere
  rw [hrow, Function.update_apply]
  split at hthere
  · next hzero => simp [hzero]
  · next hne =>
    rw [if_neg hne]
    exact hshelf.holdsFiles number hle
      ((hshelf.sound.present_numbered_iff hpath).2 ⟨hnumberFits, hthere⟩)

/-- Opening the path of a shelf finds its file, or puts a new and empty one there. -/
theorem openTarget_cases {target : Target} {opened : FileTree}
    (hopen : tree.openTarget path = .ok (target, opened)) :
    opened.Shelf path count ∧ ∃ file, target = .file file ∧
      opened.row path = Function.update (tree.row path) 0 (some file) ∧
      ((tree.row path 0 = some file ∧ opened = tree) ∨
        (tree.row path 0 = none ∧ file = tree.contents.size ∧
          opened.contents = tree.contents.push [])) := by
  obtain ⟨folder, name, hpath⟩ := hshelf.endsIn
  obtain ⟨hfits, hdirectory, ⟨hleaf, rfl⟩ | ⟨hvacant, rfl, rfl⟩⟩ :=
    hshelf.sound.openTarget_cases hpath hopen
  · have hpresent : opened.present (Path.numbered path 0) = true :=
      (hshelf.sound.present_numbered_iff hpath).2 ⟨hfits, by simp [hleaf]⟩
    obtain ⟨file, hfile⟩ := Option.isSome_iff_exists.1 (hshelf.holdsFiles 0 (Nat.zero_le _) hpresent)
    have htarget : target = .file file := by
      have hfound := ((hshelf.sound.row_eq_some_iff hpath).1 hfile).2
      rw [numbered_zero, hleaf] at hfound
      exact Entry.leaf.inj (Option.some.inj hfound)
    exact ⟨hshelf, file, htarget, by rw [← hfile, Function.update_eq_self], .inl ⟨hfile, rfl⟩⟩
  · have hne : tree.spot path ≠ [] := by
      rw [tree.spot_endsIn hpath]
      simp
    obtain ⟨hopened, hrow⟩ := hshelf.update_of_find?
      (hshelf.sound.insert_file hne hvacant hdirectory []) rfl hfits (tree.find?_insert _ hne)
    have hnone : tree.row path 0 = none := by
      rw [Option.eq_none_iff_forall_ne_some]
      intro file hfile
      have hfound := ((hshelf.sound.row_eq_some_iff hpath).1 hfile).2
      rw [numbered_zero, hvacant] at hfound
      exact absurd hfound (by simp)
    exact ⟨hopened, _, rfl, hrow, .inr ⟨hnone, rfl, rfl⟩⟩

theorem store (file : Nat) (bytes : Bytes) : (tree.store file bytes).Shelf path count := by
  refine ⟨hshelf.sound.store file bytes, hshelf.endsIn, ?_⟩
  intro number hle hpresent
  rw [present_store] at hpresent
  rw [row_store]
  exact hshelf.holdsFiles number hle hpresent

end Shelf

end FileTree

namespace Sink

open FileTree

variable {sink : Sink} {tree moved : FileTree} {count : Nat}

/-! ## Moving files up -/

/-- Moving all files up raises the whole row. -/
theorem shelf_moveAllUp {number : Nat} (hshelf : tree.Shelf sink.path.toList count)
    (hle : number ≤ count) (hmoved : sink.moveAllUp number tree = (moved, none)) :
    moved.Shelf sink.path.toList count ∧ moved.contents = tree.contents ∧
      moved.row sink.path.toList = (tree.row sink.path.toList).raiseAll number := by
  obtain ⟨folder, name, hpath⟩ := hshelf.endsIn
  have hrearranged := rearranged_moveAllUp hpath (hshelf.sound.rearranged hpath) hmoved
  have hmovedRow := hrearranged.row_eq hshelf.sound hpath
  refine ⟨⟨hrearranged.sound, hshelf.endsIn, ?_⟩, hrearranged.contents_eq, ?_⟩
  · intro other hother hpresent
    obtain ⟨origin, horigin⟩ :=
      Option.isSome_iff_exists.1 ((hrearranged.present_iff hpath).1 hpresent)
    obtain ⟨lower, hlower, hslot⟩ := Row.of_raiseAll horigin
    rw [slots] at hslot
    split at hslot
    · next hstood =>
      obtain rfl := Option.some.inj hslot
      rw [hmovedRow, Row.through, horigin, Option.bind_some]
      exact hshelf.holdsFiles lower (Nat.le_trans hlower hother) hstood
    · exact absurd hslot (by simp)
  · have hrow := (hshelf.sound.rearranged hpath).row_eq hshelf.sound hpath
    rw [hmovedRow, Row.through_raiseAll, ← hrow]
    intro other hlt hstood
    rw [slots] at hstood
    split at hstood
    · next hpresent =>
      rw [← hrow]
      exact hshelf.holdsFiles other (by omega) hpresent
    · exact absurd hstood (by simp)

end Sink

end LogRelay
