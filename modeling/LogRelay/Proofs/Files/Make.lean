import LogRelay.Proofs.Files.Locate

/-!
# Making directories and opening files

Making the directories above a path adds directories on the way to it and changes nothing else. Opening
a path that ends in a name finds the leaf at its spot or makes a new, empty file there.
-/

namespace LogRelay.FileTree

/-! ## Attempts -/

theorem Attempt.andThen_eq_none {first : Attempt} {second : FileTree → Attempt} {changed : FileTree}
    (hdone : first.andThen second = (changed, none)) :
    ∃ middle, first = (middle, none) ∧ second middle = (changed, none) := by
  obtain ⟨middle, fault⟩ := first
  cases fault with
  | none => exact ⟨middle, rfl, hdone⟩
  | some fault => exact absurd (congrArg Prod.snd hdone) (by simp [Attempt.andThen])

/-! ## Directories have no contents -/

theorem contents_makeDirectory {tree made : FileTree} {path : List Char}
    (hmade : tree.makeDirectory path = .ok made) : made.contents = tree.contents := by
  rw [makeDirectory] at hmade
  split at hmade
  · exact absurd hmade (by simp)
  · exact absurd hmade (by simp [fail])
  · split at hmade
    · exact absurd hmade (by simp [fail])
    · rw [← Except.ok.inj hmade]
      rfl

theorem contents_ensureDirectory (path : List Char) (tree : FileTree) :
    (ensureDirectory path tree).1.contents = tree.contents := by
  rw [ensureDirectory]
  split
  · next made hmade => exact contents_makeDirectory hmade
  · rfl

/-- Making directories changes the contents of no file, whether it succeeds or not. -/
theorem contents_makeDirectories (tree : FileTree) (path : List Char) :
    (tree.makeDirectories path).1.contents = tree.contents := by
  rw [makeDirectories]
  generalize path.length + 1 = limit
  induction limit generalizing path with
  | zero => rfl
  | succ limit induction =>
      rw [makeDirectoriesFrom]
      split
      · rfl
      · simp only
        split
        · rw [Attempt.andThen]
          split
          · exact (contents_ensureDirectory path _).trans (induction _)
          · exact induction _
        · exact contents_ensureDirectory path tree

/-! ## Trees with more directories -/

/-- The second tree has some directories more, all of them at or above a location. -/
structure Extends (before after : FileTree) (bound : Location) : Prop where
  /-- The tree is sound. -/
  sound : after.Sound
  /-- The working directory is the same. -/
  home_eq : after.home = before.home
  /-- The contents are the same. -/
  contents_eq : after.contents = before.contents
  /-- What was there is there, and nothing new but directories. -/
  find?_cases : ∀ location, after.find? location = before.find? location ∨
    (before.find? location = none ∧ after.find? location = some .directory ∧ location <+: bound)

namespace Extends

variable {before middle after : FileTree} {bound : Location}

theorem refl (hsound : before.Sound) : Extends before before bound :=
  ⟨hsound, rfl, rfl, fun _ => .inl rfl⟩

theorem trans (hfirst : Extends before middle bound) (hsecond : Extends middle after bound) :
    Extends before after bound := by
  refine ⟨hsecond.sound, hsecond.home_eq.trans hfirst.home_eq,
    hsecond.contents_eq.trans hfirst.contents_eq, ?_⟩
  intro location
  rcases hsecond.find?_cases location with hsame | ⟨hnone, hmade, hbound⟩
  · rw [hsame]
    exact hfirst.find?_cases location
  · rcases hfirst.find?_cases location with hkept | ⟨-, hsome, -⟩
    · exact .inr ⟨hkept ▸ hnone, hmade, hbound⟩
    · rw [hsome] at hnone
      exact absurd hnone (by simp)

theorem spot_eq (hextends : Extends before after bound) (path : List Char) :
    after.spot path = before.spot path := by
  rw [spot, spot, origin, origin, hextends.home_eq]

theorem find?_eq (hextends : Extends before after bound) {location : Location}
    (hoff : ¬ location <+: bound) : after.find? location = before.find? location := by
  rcases hextends.find?_cases location with hsame | ⟨-, -, hbound⟩
  · exact hsame
  · exact absurd hbound hoff

end Extends

namespace Sound

variable {tree : FileTree} {bound : Location}

/-! ## Making directories -/

theorem extends_ensureDirectory (hsound : tree.Sound) {path : List Char}
    (hdescends : Path.above ∉ Path.split path) (hbound : tree.spot path <+: bound) :
    Extends tree (ensureDirectory path tree).1 bound := by
  unfold ensureDirectory
  split
  · next made hmade =>
    unfold makeDirectory at hmade
    split at hmade
    · exact absurd hmade (by simp)
    · exact absurd hmade (by simp [fail])
    · next location slash hlocate =>
      obtain ⟨rfl, hne, hparent, -⟩ := hsound.locate_named hdescends hlocate
      split at hmade
      · exact absurd hmade (by simp [fail])
      · next hvacant =>
        obtain rfl := Except.ok.inj hmade
        rw [Bool.not_eq_true, Option.isSome_eq_false_iff, Option.isNone_iff_eq_none] at hvacant
        refine ⟨hsound.insert_directory hne hparent, rfl, rfl, ?_⟩
        intro other
        rw [tree.find?_insert _ hne]
        split
        · next hsame =>
          subst hsame
          exact .inr ⟨hvacant, rfl, hbound⟩
        · exact .inl rfl
  · exact .refl hsound

theorem origin_parent (tree : FileTree) {path : List Char} (hne : Path.parent path ≠ []) :
    tree.origin (Path.parent path) = tree.origin path := by
  rw [origin, origin]
  simp only [Path.head?_parent hne]

theorem isPrefix_spot_parent (tree : FileTree) {path : List Char} (hne : Path.parent path ≠ []) :
    tree.spot (Path.parent path) <+: tree.spot path := by
  rw [spot, spot, origin_parent tree hne, Path.names_parent]
  exact (List.prefix_append_right_inj _).2 (List.dropLast_prefix _)

theorem spot_parent (tree : FileTree) {path : List Char} {folder : List Path.Segment}
    {name : Path.Segment} (hpath : Path.EndsIn path folder name) (hne : Path.parent path ≠ []) :
    tree.spot (Path.parent path) = (tree.spot path).dropLast := by
  have hnames : Path.names path ≠ [] := by
    rw [hpath.names_eq]
    simp
  rw [spot, spot, origin_parent tree hne, Path.names_parent, List.dropLast_append_of_ne_nil hnames]

theorem extends_makeDirectoriesFrom (hsound : tree.Sound) (limit : Nat) {path : List Char}
    (hdescends : Path.above ∉ Path.split path) (hbound : path ≠ [] → tree.spot path <+: bound) :
    Extends tree (makeDirectoriesFrom limit tree path).1 bound := by
  induction limit generalizing path with
  | zero => exact .refl hsound
  | succ limit induction =>
      rw [makeDirectoriesFrom]
      split
      · exact .refl hsound
      next hne =>
      simp only
      split
      · have hparent := induction (Path.above_notMem_split_parent hdescends) fun hparent =>
          (isPrefix_spot_parent tree hparent).trans (hbound hne)
        unfold Attempt.andThen
        split
        · apply hparent.trans
          apply hparent.sound.extends_ensureDirectory hdescends
          rw [hparent.spot_eq]
          exact hbound hne
        · exact hparent
      · exact hsound.extends_ensureDirectory hdescends (hbound hne)

theorem extends_makeDirectories (hsound : tree.Sound) {path : List Char}
    {folder : List Path.Segment} {name : Path.Segment} (hpath : Path.EndsIn path folder name) :
    Extends tree (tree.makeDirectories (Path.parent path)).1 (tree.spot path).dropLast := by
  apply hsound.extends_makeDirectoriesFrom _ (Path.above_notMem_split_parent hpath.descends)
  intro hne
  exact spot_parent tree hpath hne ▸ List.prefix_refl _

/-! ## Directories that are there -/

/-- A path that never goes up leads to the directory at its spot, by its name or without one. -/
theorem locate_directory (hsound : tree.Sound) {path : List Char} (hne : path ≠ [])
    (hdescends : Path.above ∉ Path.split path) (hfits : Fits path)
    (hthere : tree.find? (tree.spot path) = some .directory) :
    (∃ location, tree.locate path = .ok (.directory location)) ∨
      ∃ slash, tree.locate path = .ok (.named (tree.spot path) slash) := by
  have hlocate : tree.locate path = tree.locateSegments (tree.origin path) (Path.split path) := by
    rw [locate, if_neg hfits.noNul, if_neg hne, if_neg (Nat.not_lt.2 hfits.size_le)]
    rfl
  rw [hlocate, locateSegments]
  generalize hnamed : (Path.split path).filter (fun segment => segment ≠ []) = named
  have hnames : named.filter (fun segment => !Path.isIdle segment) = Path.names path := by
    rw [← hnamed, filter_names, Path.names]
  have hsegment : ∀ segment ∈ named, segment ≠ Path.above ∧ segment ≠ [] := by
    intro segment hmem
    rw [← hnamed, List.mem_filter, decide_eq_true_eq] at hmem
    exact ⟨fun habove => hdescends (habove ▸ hmem.1), hmem.2⟩
  have habove : Path.above ∉ named := fun hmem => (hsegment Path.above hmem).1 rfl
  cases hlast : named.getLast? with
  | none => exact .inl ⟨_, rfl⟩
  | some last =>
      obtain ⟨front, rfl⟩ := List.getLast?_eq_some_iff.1 hlast
      simp only [List.dropLast_concat]
      by_cases hhere : last = Path.here
      · have hwalk := @Sound.walk tree hsound (front ++ [last]) (tree.origin path) habove
        rw [hnames] at hwalk
        rw [if_pos (.inl hhere), hwalk hthere hfits.size_name_le]
        exact .inl ⟨_, rfl⟩
      · obtain ⟨hup, hsome⟩ := hsegment last (by simp)
        have hspot : Path.names path =
            front.filter (fun segment => !Path.isIdle segment) ++ [last] := by
          rw [← hnames, List.filter_append]
          simp [Path.isIdle, hhere, hsome]
        have hsizes := hfits.size_name_le
        rw [spot, hspot, ← List.append_assoc] at hthere ⊢
        rw [hspot] at hsizes
        have hwalk := @Sound.walk tree hsound front (tree.origin path)
          (fun hmem => habove (List.mem_append_left [last] hmem))
          (hsound.parents _ last (by rw [hthere]; rfl))
          (fun name hmem => hsizes name (List.mem_append_left [last] hmem))
        rw [if_neg (not_or.2 ⟨hhere, hup⟩), hwalk]
        simp only [Except.bind, if_neg (Nat.not_lt.2 (hsizes last (by simp)))]
        exact .inr ⟨_, rfl⟩

theorem isDirectory_of_spot (hsound : tree.Sound) {path : List Char} (hne : path ≠ [])
    (hdescends : Path.above ∉ Path.split path) (hfits : Fits path)
    (hthere : tree.find? (tree.spot path) = some .directory) : tree.isDirectory path = true := by
  rcases hsound.locate_directory hne hdescends hfits hthere with ⟨location, hlocate⟩ | ⟨slash, hlocate⟩
  · rw [isDirectory, hlocate]
  · simp only [isDirectory, hlocate, hthere, decide_true]

/-- Making a directory that is there changes nothing. -/
theorem makeDirectories_of_isDirectory {path : List Char} (hthere : tree.isDirectory path = true) :
    tree.makeDirectories path = (tree, none) := by
  have htaken : ∃ fault, tree.makeDirectory path = .error fault := by
    rw [isDirectory] at hthere
    cases hlocate : tree.locate path with
    | error fault => simp [hlocate] at hthere
    | ok place =>
        rw [hlocate] at hthere
        cases place with
        | directory location => exact ⟨.system .taken, by rw [makeDirectory, hlocate]; rfl⟩
        | named location slash =>
            have hfind : tree.find? location = some .directory := of_decide_eq_true hthere
            exact ⟨.system .taken, by simp [makeDirectory, hlocate, hfind, fail]⟩
  obtain ⟨fault, hfault⟩ := htaken
  have hensure : ensureDirectory path tree = (tree, none) := by
    simp [ensureDirectory, hfault, hthere]
  rw [makeDirectories, makeDirectoriesFrom]
  split
  · rfl
  · simp [hensure]

theorem makeDirectories_parent (hsound : tree.Sound) {path : List Char}
    {folder : List Path.Segment} {name : Path.Segment} (hpath : Path.EndsIn path folder name)
    (hfits : Fits path) (hthere : (tree.find? (tree.spot path)).isSome)
    (hne : Path.parent path ≠ []) : tree.makeDirectories (Path.parent path) = (tree, none) := by
  apply makeDirectories_of_isDirectory
  apply hsound.isDirectory_of_spot hne (Path.above_notMem_split_parent hpath.descends) hfits.parent
  rw [spot_parent tree hpath hne]
  exact hsound.directory_of_spot hpath hthere

/-! ## Opening files -/

variable {path : List Char} {folder : List Path.Segment} {name : Path.Segment}

/-- What opening a path for writing does. -/
theorem openTarget_cases (hsound : tree.Sound) (hpath : Path.EndsIn path folder name)
    {target : Target} {opened : FileTree} (hopen : tree.openTarget path = .ok (target, opened)) :
    Fits path ∧ tree.find? (tree.spot path).dropLast = some .directory ∧
      ((tree.find? (tree.spot path) = some (.leaf target) ∧ opened = tree) ∨
        (tree.find? (tree.spot path) = none ∧ target = .file tree.contents.size ∧
          opened = { tree.insert (tree.spot path) (.leaf (.file tree.contents.size)) with
            contents := tree.contents.push [] })) := by
  unfold openTarget at hopen
  split at hopen
  · exact absurd hopen (by simp)
  · exact absurd hopen (by simp [fail])
  · next location slash hlocate =>
    obtain ⟨hplace, hdirectory, hfits⟩ := hsound.locate_ok hpath hlocate
    obtain ⟨rfl, rfl⟩ := Place.named.inj hplace
    refine ⟨hfits, hdirectory, ?_⟩
    simp only [Bool.false_eq_true, if_false] at hopen
    split at hopen
    · exact absurd hopen (by simp [fail])
    · next leaf hleaf =>
      obtain ⟨rfl, rfl⟩ := Prod.mk.inj (Except.ok.inj hopen)
      exact .inl ⟨hleaf, rfl⟩
    · next hnone =>
      obtain ⟨rfl, rfl⟩ := Prod.mk.inj (Except.ok.inj hopen)
      exact .inr ⟨hnone, rfl, rfl⟩

end Sound

/-- A path that never goes up and can be opened ends in a name. -/
theorem endsIn_of_openTarget {tree opened : FileTree} {path : List Char} {target : Target}
    (hdescends : Path.above ∉ Path.split path) (hopen : tree.openTarget path = .ok (target, opened)) :
    ∃ folder name, Path.EndsIn path folder name := by
  obtain ⟨location, hlocate⟩ : ∃ location, tree.locate path = .ok (.named location false) := by
    unfold openTarget at hopen
    split at hopen
    · exact absurd hopen (by simp)
    · exact absurd hopen (by simp [fail])
    · next location slash hlocate =>
      cases slash with
      | false => exact ⟨location, hlocate⟩
      | true => exact absurd hopen (by simp [fail])
  obtain ⟨-, -, hsegments⟩ := locateSegments_of_locate hlocate
  obtain ⟨front, name, -, hfront, hhere, habove, -, -, -, hslash⟩ := locateSegments_named hsegments
  obtain ⟨last, hlast⟩ := Option.ne_none_iff_exists'.1
    (mt List.getLast?_eq_none_iff.1 (Path.split_ne_nil path))
  obtain ⟨folder, hfolder⟩ := List.getLast?_eq_some_iff.1 hlast
  have hsome : last ≠ [] := by
    rintro rfl
    simp [hlast] at hslash
  have hname : last = name := by
    have hfilter : (Path.split path).filter (fun segment => segment ≠ []) =
        folder.filter (fun segment => segment ≠ []) ++ [last] := by
      simp [hfolder, List.filter_append, hsome]
    rw [hfront] at hfilter
    exact (List.append_inj_right' hfilter rfl |> List.singleton_inj.1).symm
  refine ⟨folder, last, hfolder, ?_, hdescends⟩
  rw [hname] at hsome ⊢
  simp [Path.isName, Path.isIdle, hsome, hhere, habove]

end LogRelay.FileTree
