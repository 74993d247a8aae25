import LogRelay.Proofs.Files.Tree
import LogRelay.Proofs.Path.Numbered

/-!
# Where paths lead

In a sound tree a path that never goes up leads to the spot named by its names, whatever else stands in
the tree: it leads there as soon as its names fit and the directories on the way are there. What stands
at the spot is all that matters for whether the path is present and for the regular file it leads to.
-/

namespace LogRelay.FileTree

/-- Where paths like the given one start. -/
def origin (tree : FileTree) (path : List Char) : Location :=
  if path.head? = some '/' then [] else tree.home

/-- The location that the names on a path add up to. -/
def spot (tree : FileTree) (path : List Char) : Location := tree.origin path ++ Path.names path

/-- The number of the regular file at a location. -/
def fileOf? (tree : FileTree) (location : Location) : Option Nat :=
  match tree.find? location with
  | some (.leaf (.file number)) => some number
  | _ => none

/-- The number of the regular file that a path leads to. -/
def fileAt? (tree : FileTree) (path : List Char) : Option Nat :=
  match tree.locate path with
  | .ok (.named location false) => tree.fileOf? location
  | _ => none

/-- A path whose spelling the system accepts. -/
structure Fits (path : List Char) : Prop where
  /-- It can be handed over. -/
  noNul : '\x00' ∉ path
  /-- It is not too long. -/
  size_le : Utf8.size path ≤ pathLimit
  /-- No name on it is too long. -/
  size_name_le : ∀ name ∈ Path.names path, Utf8.size name ≤ nameLimit

variable {tree : FileTree}

theorem fileOf?_eq_some_iff {location : Location} {number : Nat} :
    tree.fileOf? location = some number ↔ tree.find? location = some (.leaf (.file number)) := by
  unfold fileOf?
  split
  · next found hfound => simp [hfound]
  · next hother =>
    constructor
    · intro hnone
      exact absurd hnone (by simp)
    · intro hfound
      exact absurd hfound (hother number)

theorem Fits.parent {path : List Char} (hfits : Fits path) : Fits (Path.parent path) := by
  obtain ⟨rest, hrest⟩ := Path.parent_isPrefix path
  refine ⟨fun hmem => hfits.noNul ((Path.parent_isPrefix path).subset hmem), ?_, ?_⟩
  · have hsize := hfits.size_le
    rw [← hrest, Utf8.size_append] at hsize
    exact Nat.le_trans (Nat.le_add_right _ _) hsize
  · rw [Path.names_parent]
    exact fun name hmem => hfits.size_name_le name (List.dropLast_subset _ hmem)

/-! ## Walking -/

theorem walk_append (tree : FileTree) (front back : List Path.Segment) (start : Location) :
    tree.walk start (front ++ back) =
      (tree.walk start front).bind fun location => tree.walk location back := by
  induction front generalizing start with
  | nil => rfl
  | cons segment rest induction =>
      rw [List.cons_append, walk, walk, induction, induction, induction]
      repeat' split
      all_goals rfl

theorem walk_filter (tree : FileTree) (segments : List Path.Segment) (start : Location) :
    tree.walk start (segments.filter fun segment => !Path.isIdle segment) = tree.walk start segments := by
  induction segments generalizing start with
  | nil => rfl
  | cons segment rest induction =>
      cases hidle : Path.isIdle segment with
      | true =>
          rw [List.filter_cons_of_neg (by simp [hidle]), walk, if_pos hidle]
          exact induction start
      | false =>
          rw [List.filter_cons_of_pos (by simp [hidle]), walk, walk]
          simp only [induction]

/-- A walk that ends in a name ends below the directory before it. -/
theorem walk_concat {start stop : Location} {folder : List Path.Segment} (hname : Path.isName name = true)
    (hwalk : tree.walk start (folder ++ [name]) = .ok stop) :
    ∃ directory, tree.walk start folder = .ok directory ∧ stop = directory ++ [name] := by
  rw [walk_append] at hwalk
  cases hfolder : tree.walk start folder with
  | error fault => simp [hfolder, Except.bind] at hwalk
  | ok directory =>
      have habove : name ≠ Path.above := by
        rintro rfl
        exact absurd hname (by decide)
      simp only [hfolder, Except.bind, walk, Path.isIdle_eq_false_of_isName hname, Bool.false_eq_true,
        if_false, if_neg habove] at hwalk
      split at hwalk
      · exact absurd hwalk (by simp [fail])
      · split at hwalk
        · exact ⟨directory, rfl, (Except.ok.inj hwalk).symm⟩
        · exact absurd hwalk (by simp [fail])
        · exact absurd hwalk (by simp [fail])

theorem walk_ok {segments : List Path.Segment} {start stop : Location}
    (hdescends : Path.above ∉ segments) (hwalk : tree.walk start segments = .ok stop)
    (hstart : tree.find? start = some .directory) :
    stop = start ++ segments.filter (fun segment => !Path.isIdle segment) ∧
      tree.find? stop = some .directory ∧
      ∀ name ∈ segments.filter (fun segment => !Path.isIdle segment),
        Utf8.size name ≤ nameLimit := by
  induction segments generalizing start with
  | nil =>
      obtain rfl : start = stop := by simpa [walk] using hwalk
      exact ⟨by simp, hstart, by simp⟩
  | cons segment rest induction =>
      simp only [List.mem_cons, not_or] at hdescends
      rw [walk] at hwalk
      by_cases hidle : Path.isIdle segment = true
      · rw [if_pos hidle] at hwalk
        rw [List.filter_cons_of_neg (by simp [hidle])]
        exact induction hdescends.2 hwalk hstart
      · rw [if_neg hidle, if_neg (Ne.symm hdescends.1)] at hwalk
        rw [List.filter_cons_of_pos (by simp [hidle])]
        split at hwalk
        · simp [fail] at hwalk
        · next hsize =>
          split at hwalk
          · next hthere =>
            obtain ⟨hstop, hdirectory, hnames⟩ := induction hdescends.2 hwalk hthere
            refine ⟨by simp [hstop], hdirectory, ?_⟩
            intro name hname
            rcases List.mem_cons.1 hname with rfl | hrest
            · exact Nat.le_of_not_lt hsize
            · exact hnames name hrest
          · simp [fail] at hwalk
          · simp [fail] at hwalk

theorem Sound.walk (hsound : tree.Sound) {segments : List Path.Segment} {start : Location}
    (hdescends : Path.above ∉ segments)
    (hstop : tree.find? (start ++ segments.filter fun segment => !Path.isIdle segment) =
      some .directory)
    (hnames : ∀ name ∈ segments.filter (fun segment => !Path.isIdle segment),
      Utf8.size name ≤ nameLimit) :
    tree.walk start segments =
      .ok (start ++ segments.filter fun segment => !Path.isIdle segment) := by
  induction segments generalizing start with
  | nil => simp [FileTree.walk]
  | cons segment rest induction =>
      simp only [List.mem_cons, not_or] at hdescends
      rw [FileTree.walk]
      by_cases hidle : Path.isIdle segment = true
      · rw [List.filter_cons_of_neg (by simp [hidle])] at hstop hnames ⊢
        rw [if_pos hidle]
        exact induction hdescends.2 hstop hnames
      · rw [List.filter_cons_of_pos (by simp [hidle])] at hstop hnames ⊢
        have hsize : Utf8.size segment ≤ nameLimit := hnames segment List.mem_cons_self
        have hcons := List.append_cons start segment
          (rest.filter fun segment => !Path.isIdle segment)
        rw [hcons] at hstop ⊢
        have hthere : tree.find? (start ++ [segment]) = some .directory := by
          by_cases hlast : start ++ [segment] =
              start ++ [segment] ++ rest.filter fun segment => !Path.isIdle segment
          · rw [← hlast] at hstop
            exact hstop
          · exact hsound.directory_of_prefix (by rw [hstop]; rfl) (List.prefix_append _ _) hlast
        rw [if_neg hidle, if_neg (Ne.symm hdescends.1), if_neg (Nat.not_lt.2 hsize), hthere]
        exact induction hdescends.2 hstop fun name hname =>
          hnames name (List.mem_cons_of_mem segment hname)

/-! ## Locating -/

theorem Sound.find?_origin (hsound : tree.Sound) (path : List Char) :
    tree.find? (tree.origin path) = some .directory := by
  unfold origin
  split
  · rfl
  · exact hsound.home

theorem filter_names (segments : List Path.Segment) :
    (segments.filter fun segment => segment ≠ []).filter (fun segment => !Path.isIdle segment) =
      segments.filter fun segment => !Path.isIdle segment := by
  rw [List.filter_filter]
  congr 1
  funext segment
  by_cases hnil : segment = [] <;> simp [hnil, Path.isIdle]

theorem locateSegments_of_locate {path : List Char} {place : Place}
    (hlocate : tree.locate path = .ok place) :
    '\x00' ∉ path ∧ Utf8.size path ≤ pathLimit ∧
      tree.locateSegments (tree.origin path) (Path.split path) = .ok place := by
  unfold locate at hlocate
  split at hlocate
  · exact absurd hlocate (by simp)
  next hnul =>
  split at hlocate
  · exact absurd hlocate (by simp [fail])
  split at hlocate
  · exact absurd hlocate (by simp [fail])
  next hsize =>
  exact ⟨hnul, Nat.le_of_not_lt hsize, hlocate⟩

/-- Segments that lead to a name walk to a directory, and the name is the last that is not empty. -/
theorem locateSegments_named {start location : Location} {segments : List Path.Segment} {slash : Bool}
    (hlocate : tree.locateSegments start segments = .ok (.named location slash)) :
    ∃ front last directory, segments.filter (fun segment => segment ≠ []) = front ++ [last] ∧
      last ≠ Path.here ∧ last ≠ Path.above ∧ tree.walk start front = .ok directory ∧
      Utf8.size last ≤ nameLimit ∧ location = directory ++ [last] ∧
      slash = decide (segments.getLast? = some []) := by
  unfold locateSegments at hlocate
  simp only at hlocate
  split at hlocate
  · exact absurd hlocate (by simp)
  next last hlast =>
  obtain ⟨front, hfront⟩ := List.getLast?_eq_some_iff.1 hlast
  rw [hfront, List.dropLast_concat] at hlocate
  split at hlocate
  · cases hwalk : tree.walk start (front ++ [last]) with
    | error fault => simp [hwalk, Except.map] at hlocate
    | ok stop => simp [hwalk, Except.map] at hlocate
  next hname =>
  rw [not_or] at hname
  cases hwalk : tree.walk start front with
  | error fault => simp [hwalk, Except.bind] at hlocate
  | ok directory =>
      simp only [hwalk, Except.bind] at hlocate
      split at hlocate
      · exact absurd hlocate (by simp [fail])
      next hsize =>
      obtain ⟨rfl, rfl⟩ := Place.named.inj (Except.ok.inj hlocate)
      exact ⟨front, last, directory, hfront, hname.1, hname.2, hwalk, Nat.le_of_not_lt hsize, rfl, rfl⟩

/-- Segments that lead to a directory as a whole are walked to the end. -/
theorem locateSegments_directory {start location : Location} {segments : List Path.Segment}
    (hlocate : tree.locateSegments start segments = .ok (.directory location)) :
    tree.walk start (segments.filter fun segment => segment ≠ []) = .ok location := by
  unfold locateSegments at hlocate
  simp only at hlocate
  generalize segments.filter (fun segment => segment ≠ []) = named at hlocate ⊢
  split at hlocate
  · next hlast =>
    obtain rfl := Place.directory.inj (Except.ok.inj hlocate)
    rw [List.getLast?_eq_none_iff.1 hlast]
    rfl
  · split at hlocate
    · cases hwalk : tree.walk start named with
      | error fault => simp [hwalk, Except.map] at hlocate
      | ok stop => simpa [hwalk, Except.map] using hlocate
    · cases hwalk : tree.walk start named.dropLast with
      | error fault => simp [hwalk, Except.bind] at hlocate
      | ok directory =>
          simp only [hwalk, Except.bind] at hlocate
          split at hlocate <;> simp [fail] at hlocate

/-- A path that never goes up and leads to a name leads to its spot, below a directory. -/
theorem Sound.locate_named (hsound : tree.Sound) {path : List Char} {location : Location}
    {slash : Bool} (hdescends : Path.above ∉ Path.split path)
    (hlocate : tree.locate path = .ok (.named location slash)) :
    location = tree.spot path ∧ location ≠ [] ∧
      tree.find? location.dropLast = some .directory ∧ Fits path := by
  obtain ⟨hnul, hsize, hsegments⟩ := locateSegments_of_locate hlocate
  obtain ⟨front, last, directory, hfront, hhere, -, hwalk, hlastSize, rfl, -⟩ :=
    locateSegments_named hsegments
  have hsegment : ∀ segment ∈ front ++ [last], segment ∈ Path.split path ∧ segment ≠ [] := by
    intro segment hmem
    rw [← hfront] at hmem
    simpa using hmem
  have hlastIdle : Path.isIdle last = false := by
    simp [Path.isIdle, hhere, (hsegment last (by simp)).2]
  have habove : Path.above ∉ front := fun hmem =>
    hdescends (hsegment Path.above (List.mem_append_left [last] hmem)).1
  obtain ⟨rfl, hdirectory, hnames⟩ := walk_ok habove hwalk (hsound.find?_origin path)
  have hpath : Path.names path = front.filter (fun segment => !Path.isIdle segment) ++ [last] := by
    rw [Path.names, ← filter_names, hfront, List.filter_append]
    simp [hlastIdle]
  refine ⟨by rw [spot, hpath, List.append_assoc], by simp, ?_, hnul, hsize, ?_⟩
  · rw [List.dropLast_concat]
    exact hdirectory
  · rw [hpath]
    intro name hmem
    rcases List.mem_append.1 hmem with hfolder | hlastName
    · exact hnames name hfolder
    · rw [List.mem_singleton.1 hlastName]
      exact hlastSize

section Names

variable {path : List Char} {folder : List Path.Segment} {name : Path.Segment}

theorem locate_endsIn (tree : FileTree) (hpath : Path.EndsIn path folder name) :
    tree.locate path =
      if '\x00' ∈ path then .error .nulInPath
      else if pathLimit < Utf8.size path then fail .nameTooLong
      else
        (tree.walk (tree.origin path) (folder.filter fun segment => segment ≠ [])).bind
          fun directory =>
            if nameLimit < Utf8.size name then fail .nameTooLong
            else .ok (.named (directory ++ [name]) false) := by
  have hne : name ≠ [] ∧ name ≠ Path.here ∧ name ≠ Path.above := by
    simpa [Path.isName, Path.isIdle, and_assoc] using hpath.isName
  have hsegments : tree.locateSegments (tree.origin path) (Path.split path) =
      (tree.walk (tree.origin path) (folder.filter fun segment => segment ≠ [])).bind
        fun directory =>
          if nameLimit < Utf8.size name then fail .nameTooLong
          else .ok (.named (directory ++ [name]) false) := by
    have hfilter : (folder ++ [name]).filter (fun segment => segment ≠ []) =
        folder.filter (fun segment => segment ≠ []) ++ [name] := by
      simp [List.filter_append, hne.1]
    simp only [locateSegments, hpath.split_eq, hfilter, List.getLast?_concat, List.dropLast_concat]
    simp [hne]
  rw [locate, if_neg hpath.ne_nil]
  split
  · rfl
  · split
    · rfl
    · exact hsegments

/-- A path that ends in a name leads to its spot, unless it leads nowhere. -/
theorem Sound.locate_ok (hsound : tree.Sound) (hpath : Path.EndsIn path folder name) {place : Place}
    (hlocate : tree.locate path = .ok place) :
    place = .named (tree.spot path) false ∧
      tree.find? (tree.spot path).dropLast = some .directory ∧ Fits path := by
  have hplace : ∃ location, place = .named location false := by
    rw [tree.locate_endsIn hpath] at hlocate
    split at hlocate
    · exact absurd hlocate (by simp)
    split at hlocate
    · exact absurd hlocate (by simp [fail])
    cases hwalk : tree.walk (tree.origin path) (folder.filter fun segment => segment ≠ []) with
    | error fault =>
        rw [hwalk] at hlocate
        exact absurd hlocate (by simp [Except.bind])
    | ok directory =>
        simp only [hwalk, Except.bind] at hlocate
        split at hlocate
        · exact absurd hlocate (by simp [fail])
        · exact ⟨directory ++ [name], (Except.ok.inj hlocate).symm⟩
  obtain ⟨location, rfl⟩ := hplace
  obtain ⟨rfl, -, hdirectory, hfits⟩ := hsound.locate_named hpath.descends hlocate
  exact ⟨rfl, hdirectory, hfits⟩

theorem spot_endsIn (tree : FileTree) (hpath : Path.EndsIn path folder name) :
    tree.spot path =
      tree.origin path ++ folder.filter (fun segment => !Path.isIdle segment) ++ [name] := by
  rw [spot, hpath.names_eq, List.append_assoc]

/-- A path that ends in a name and fits leads to its spot if the directory is there. -/
theorem Sound.locate_eq (hsound : tree.Sound) (hpath : Path.EndsIn path folder name)
    (hfits : Fits path) (hdirectory : tree.find? (tree.spot path).dropLast = some .directory) :
    tree.locate path = .ok (.named (tree.spot path) false) := by
  have hnames : ∀ segment ∈ folder.filter (fun segment => !Path.isIdle segment) ++ [name],
      Utf8.size segment ≤ nameLimit := by
    rw [← hpath.names_eq]
    exact hfits.size_name_le
  have habove : Path.above ∉ folder.filter fun segment => segment ≠ [] := by
    intro hmem
    apply hpath.descends
    rw [hpath.split_eq]
    exact List.mem_append_left [name] (List.mem_filter.1 hmem).1
  rw [tree.spot_endsIn hpath, List.dropLast_concat, ← filter_names] at hdirectory
  have hwalk := hsound.walk habove hdirectory fun segment hmem =>
    hnames segment (List.mem_append_left [name] (filter_names folder ▸ hmem))
  rw [tree.locate_endsIn hpath, if_neg hfits.noNul, if_neg (Nat.not_lt.2 hfits.size_le), hwalk,
    filter_names, tree.spot_endsIn hpath]
  simp only [Except.bind]
  rw [if_neg (Nat.not_lt.2 (hnames name (by simp)))]

theorem Sound.directory_of_spot (hsound : tree.Sound) (hpath : Path.EndsIn path folder name)
    (hthere : (tree.find? (tree.spot path)).isSome) :
    tree.find? (tree.spot path).dropLast = some .directory := by
  rw [tree.spot_endsIn hpath] at hthere ⊢
  rw [List.dropLast_concat]
  exact hsound.parents _ name hthere

/-- A path that ends in a name is present when it fits and something stands at its spot. -/
theorem Sound.present_iff (hsound : tree.Sound) (hpath : Path.EndsIn path folder name) :
    tree.present path = true ↔ Fits path ∧ (tree.find? (tree.spot path)).isSome := by
  constructor
  · intro hpresent
    unfold present at hpresent
    split at hpresent
    · exact absurd hpresent (by simp)
    · next hlocate => exact absurd (hsound.locate_ok hpath hlocate).1 (by simp)
    · next hlocate =>
      obtain ⟨hplace, -, hfits⟩ := hsound.locate_ok hpath hlocate
      obtain ⟨rfl, rfl⟩ := Place.named.inj hplace
      refine ⟨hfits, ?_⟩
      cases hfind : tree.find? (tree.spot path) with
      | none => simp [hfind] at hpresent
      | some entry => rfl
  · rintro ⟨hfits, hthere⟩
    have hlocate := hsound.locate_eq hpath hfits (hsound.directory_of_spot hpath hthere)
    obtain ⟨entry, hentry⟩ := Option.isSome_iff_exists.1 hthere
    cases entry <;> simp [present, hlocate, hentry]

theorem Sound.find?_spot_of_not_present (hsound : tree.Sound) (hpath : Path.EndsIn path folder name)
    (hfits : Fits path) (habsent : ¬tree.present path = true) : tree.find? (tree.spot path) = none := by
  rw [hsound.present_iff hpath, not_and, Bool.not_eq_true, Option.isSome_eq_false_iff,
    Option.isNone_iff_eq_none] at habsent
  exact habsent hfits

theorem Sound.fileAt?_eq_some_iff (hsound : tree.Sound) (hpath : Path.EndsIn path folder name)
    {number : Nat} :
    tree.fileAt? path = some number ↔
      Fits path ∧ tree.find? (tree.spot path) = some (.leaf (.file number)) := by
  constructor
  · intro hfile
    unfold fileAt? at hfile
    split at hfile
    · next hlocate =>
      obtain ⟨hplace, -, hfits⟩ := hsound.locate_ok hpath hlocate
      obtain ⟨rfl, -⟩ := Place.named.inj hplace
      exact ⟨hfits, fileOf?_eq_some_iff.1 hfile⟩
    · exact absurd hfile (by simp)
  · rintro ⟨hfits, hfile⟩
    have hlocate := hsound.locate_eq hpath hfits (hsound.directory_of_spot hpath (by simp [hfile]))
    simp only [fileAt?, hlocate]
    exact fileOf?_eq_some_iff.2 hfile

end Names

end LogRelay.FileTree
