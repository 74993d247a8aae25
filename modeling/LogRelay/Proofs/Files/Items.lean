import LogRelay.Proofs.Files.Make

/-!
# What paths hold

What stands at a location is a directory, a device, or a regular file with its contents; a path holds what
stands at the location it leads to and everything below. Emptying a file or making one changes what stands
at its location and nothing else.
-/

namespace LogRelay

/-- What stands at a location, a regular file with its contents. -/
inductive Item where
  | directory
  | file (bytes : Bytes)
  | device (device : Device)
deriving DecidableEq, Repr

/-- One item with nothing below it. -/
def Item.alone (item : Item) (below : Location) : Option Item :=
  if below = [] then some item else none

/-- What stands where something was opened and emptied. -/
def Target.emptied : Target → Item
  | .file _ => .file []
  | .device kind => .device kind

/-- The location that a path leads to. -/
def Place.location : Place → Location
  | directory location => location
  | named location _ => location

namespace FileTree

/-- What stands at a location. -/
def item? (tree : FileTree) (location : Location) : Option Item :=
  (tree.find? location).map fun
    | .directory => .directory
    | .leaf (.file number) => .file (tree.read number)
    | .leaf (.device device) => .device device

/-- What a path that is present holds: what stands at the location it leads to, and below. -/
def itemsAt (tree : FileTree) (path : List Char) (below : Location) : Option Item :=
  if tree.present path then
    (tree.locate path).toOption.bind fun place => tree.item? (place.location ++ below)
  else none

/-- A location is that of a path, or below it. -/
def Covers (tree : FileTree) (path : List Char) (location : Location) : Prop :=
  ∃ place, tree.locate path = .ok place ∧ place.location <+: location

variable {tree : FileTree} {path : List Char} {folder : List Path.Segment} {name : Path.Segment}

theorem item?_eq_none_iff {location : Location} :
    tree.item? location = none ↔ tree.find? location = none := Option.map_eq_none_iff

theorem item?_eq_device_iff {location : Location} {device : Device} :
    tree.item? location = some (.device device) ↔
      tree.find? location = some (.leaf (.device device)) := by
  rw [item?]
  cases tree.find? location with
  | none => simp
  | some entry =>
      cases entry with
      | directory => simp
      | leaf leaf => cases leaf <;> simp

/-- Trees with the same things at two locations have the same items there, if the contents of files are the
same. -/
theorem item?_congr {before after : FileTree} {source target : Location}
    (hfind : after.find? target = before.find? source)
    (hread : ∀ number, before.find? source = some (.leaf (.file number)) →
      after.read number = before.read number) :
    after.item? target = before.item? source := by
  rw [item?, item?, hfind]
  cases hentry : before.find? source with
  | none => rfl
  | some entry =>
      cases entry with
      | directory => rfl
      | leaf leaf =>
          cases leaf with
          | device device => rfl
          | file number => simp only [Option.map_some, hread number hentry]

theorem Sound.itemsAt_eq (hsound : tree.Sound) (hpath : Path.EndsIn path folder name)
    (hfits : Fits path) (below : Location) :
    tree.itemsAt path below = tree.item? (tree.spot path ++ below) := by
  rw [itemsAt]
  by_cases hpresent : tree.present path = true
  · obtain ⟨-, hstands⟩ := (hsound.present_iff hpath).1 hpresent
    rw [if_pos hpresent, hsound.locate_eq hpath hfits (hsound.directory_of_spot hpath hstands)]
    rfl
  · rw [if_neg hpresent, Eq.comm, item?_eq_none_iff]
    exact hsound.find?_append_of_vacant (hsound.find?_spot_of_not_present hpath hfits hpresent) below

theorem Sound.itemsAt_eq_alone (hsound : tree.Sound) (hpath : Path.EndsIn path folder name)
    (hfits : Fits path) (hleaf : tree.find? (tree.spot path) ≠ some .directory) {item : Item}
    (hitem : tree.item? (tree.spot path) = some item) : tree.itemsAt path = item.alone := by
  funext below
  rw [hsound.itemsAt_eq hpath hfits]
  cases below with
  | nil =>
      rw [List.append_nil, hitem]
      rfl
  | cons segment rest =>
      rw [item?, hsound.find?_below hleaf (List.prefix_append (tree.spot path) _) (by simp)]
      rfl

theorem itemsAt_of_not_present (hpresent : ¬tree.present path = true) :
    tree.itemsAt path = fun _ => none := funext fun _ => if_neg hpresent

theorem Sound.present_eq (hsound : tree.Sound) (hpath : Path.EndsIn path folder name) :
    tree.present path = (tree.itemsAt path []).isSome := by
  by_cases hpresent : tree.present path = true
  · obtain ⟨hfits, hstands⟩ := (hsound.present_iff hpath).1 hpresent
    rw [hpresent, hsound.itemsAt_eq hpath hfits, List.append_nil, item?, Option.isSome_map, hstands]
  · rw [itemsAt_of_not_present hpresent, Option.isSome_none, Bool.eq_false_iff]
    exact hpresent

theorem Sound.covers_of_isPrefix (hsound : tree.Sound) (hpath : Path.EndsIn path folder name)
    (hfits : Fits path) (hdirectory : tree.find? (tree.spot path).dropLast = some .directory)
    {location : Location} (hbegins : tree.spot path <+: location) : tree.Covers path location :=
  ⟨_, hsound.locate_eq hpath hfits hdirectory, hbegins⟩

/-! ## Emptying -/

/-- What a tree is after a file was emptied at a location, or made there. -/
structure Emptied (before after : FileTree) (location : Location) (target : Target) : Prop where
  /-- The tree is sound. -/
  sound : after.Sound
  /-- The working directory stays. -/
  home_eq : after.home = before.home
  /-- What is open stands at the location. -/
  find?_eq : after.find? location = some (.leaf target)
  /-- It stood there before, or nothing did and it is a new file. -/
  found : before.find? location = some (.leaf target) ∨
    (before.find? location = none ∧ target = .file before.contents.size)
  /-- A regular file is empty. -/
  read_eq : ∀ number, target = .file number → after.read number = []
  /-- Nothing else has changed. -/
  elsewhere : ∀ other, other ≠ location → after.item? other = before.item? other

theorem Emptied.spot_eq {before after : FileTree} {location : Location} {target : Target}
    (hemptied : Emptied before after location target) (path : List Char) :
    after.spot path = before.spot path := by
  rw [spot, spot, origin, origin, hemptied.home_eq]

theorem Emptied.fileAt?_self {after : FileTree} {target : Target}
    (hemptied : Emptied tree after (tree.spot path) target) (hpath : Path.EndsIn path folder name)
    (hfits : Fits path) {file : Nat} (hfile : target = .file file) : after.fileAt? path = some file := by
  rw [hemptied.sound.fileAt?_eq_some_iff hpath, hemptied.spot_eq]
  exact ⟨hfits, hfile ▸ hemptied.find?_eq⟩

theorem Emptied.itemsAt_self {after : FileTree} {target : Target}
    (hemptied : Emptied tree after (tree.spot path) target) (hpath : Path.EndsIn path folder name)
    (hfits : Fits path) : after.itemsAt path = target.emptied.alone := by
  rw [← hemptied.spot_eq] at hemptied
  apply hemptied.sound.itemsAt_eq_alone hpath hfits (by simp [hemptied.find?_eq])
  rw [item?, hemptied.find?_eq]
  cases target with
  | device device => rfl
  | file number =>
      simp only [Option.map_some, hemptied.read_eq number rfl]
      rfl

theorem Sound.emptied_store (hsound : tree.Sound) {location : Location} {number : Nat}
    (hleaf : tree.find? location = some (.leaf (.file number))) :
    Emptied tree (tree.store number []) location (.file number) := by
  refine ⟨hsound.store number [], rfl, hleaf, .inl hleaf, ?_, ?_⟩
  · rintro _ ⟨⟩
    exact read_store_self (hsound.stored location number hleaf) []
  · intro other hother
    apply item?_congr
    · rfl
    · intro found hfound
      apply read_store_of_ne
      rintro rfl
      exact hother (hsound.distinct other location found hfound hleaf)

theorem Sound.emptied_vacant (hsound : tree.Sound) {location : Location} (hne : location ≠ [])
    (hvacant : tree.find? location = none)
    (hparent : tree.find? location.dropLast = some .directory) :
    Emptied tree
      (FileTree.store { tree.insert location (.leaf (.file tree.contents.size)) with
        contents := tree.contents.push [] } tree.contents.size [])
      location (.file tree.contents.size) := by
  have hfind := tree.find?_insert (.leaf (.file tree.contents.size)) hne
  refine ⟨(hsound.insert_file hne hvacant hparent []).store _ _, rfl, ?_, .inr ⟨hvacant, rfl⟩, ?_, ?_⟩
  · exact (hfind location).trans (if_pos rfl)
  · rintro _ ⟨⟩
    exact read_store_self (by simp) []
  · intro other hother
    apply item?_congr
    · exact (hfind other).trans (if_neg hother)
    · intro found hfound
      have hstored := hsound.stored other found hfound
      rw [read_store_of_ne (Nat.ne_of_lt hstored)]
      exact read_of_contents_eq_push rfl hstored

/-- What creating a file comes to. -/
theorem Sound.emptied_create (hsound : tree.Sound) (hpath : Path.EndsIn path folder name)
    {handle : Handle} {created : FileTree} (hcreate : tree.create path = .ok (handle, created)) :
    ∃ target, handle = ⟨target, some 0⟩ ∧ tree.find? (tree.spot path).dropLast = some .directory ∧
      Fits path ∧ Emptied tree created (tree.spot path) target := by
  obtain ⟨target, opened, hopen, rfl, rfl⟩ := exists_target_of_create hcreate
  obtain ⟨hfits, hdirectory, hcases⟩ := hsound.openTarget_cases hpath hopen
  refine ⟨target, rfl, hdirectory, hfits, ?_⟩
  rcases hcases with ⟨hleaf, rfl⟩ | ⟨hvacant, rfl, rfl⟩
  · cases target with
    | device device => exact ⟨hsound, rfl, hleaf, .inl hleaf, by simp, fun _ _ => rfl⟩
    | file number => exact hsound.emptied_store hleaf
  · have hne : tree.spot path ≠ [] := by
      rw [tree.spot_endsIn hpath]
      simp
    exact hsound.emptied_vacant hne hvacant hdirectory

end FileTree

end LogRelay
