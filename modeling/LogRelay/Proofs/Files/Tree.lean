import LogRelay.Files
import LogRelay.Proofs.Lookup
import Mathlib.Data.List.Induction

/-!
# What stands where in a tree

A tree is sound when everything in it stands in a directory and no two locations share a regular file.
The changes that a sink makes to a tree are computed location by location, and each leaves a sound tree
sound.
-/

namespace LogRelay.FileTree

/-- Everything stands in a directory, and each regular file has one location and contents of its own. -/
structure Sound (tree : FileTree) : Prop where
  /-- The working directory is there. -/
  home : tree.find? tree.home = some .directory
  /-- What is there stands in a directory. -/
  parents : ∀ location segment, (tree.find? (location ++ [segment])).isSome →
    tree.find? location = some .directory
  /-- Different locations have different files. -/
  distinct : ∀ first second number, tree.find? first = some (.leaf (.file number)) →
    tree.find? second = some (.leaf (.file number)) → first = second
  /-- The contents of every file are kept. -/
  stored : ∀ location number, tree.find? location = some (.leaf (.file number)) →
    number < tree.contents.size

/-! ## Looking up -/

theorem carried_append (source target rest : Location) :
    carried source target (source ++ rest) = target ++ rest := by
  simp [carried]

theorem carried_of_not_isPrefix {source location : Location} (hoff : ¬source <+: location)
    (target : Location) : carried source target location = location := by
  rw [carried, if_neg]
  exact fun hbegins => hoff (List.isPrefixOf_iff_prefix.1 hbegins)

/-- What is carried to a location: what was below the source if the location is below the target, and
otherwise nothing but what was there. -/
theorem eq_carried_iff {source target key : Location} (hkey : ¬target <+: key) (location : Location) :
    location = carried source target key ↔
      if target <+: location then source ++ location.drop target.length = key
      else ¬source <+: location ∧ location = key := by
  by_cases hsource : source <+: key
  · obtain ⟨rest, rfl⟩ := hsource
    rw [carried_append]
    split
    · next htarget =>
      obtain ⟨other, rfl⟩ := htarget
      rw [List.drop_left, List.append_cancel_left_eq, List.append_cancel_left_eq]
    · next htarget =>
      refine iff_of_false ?_ ?_
      · rintro rfl
        exact htarget (List.prefix_append _ _)
      · rintro ⟨hoff, rfl⟩
        exact hoff (List.prefix_append _ _)
  · rw [carried_of_not_isPrefix hsource]
    split
    · next htarget =>
      refine iff_of_false ?_ ?_
      · rintro rfl
        exact hkey htarget
      · rintro rfl
        exact hsource (List.prefix_append _ _)
    · constructor
      · rintro rfl
        exact ⟨hsource, rfl⟩
      · exact fun hboth => hboth.2

theorem lookup_map_carried {source target : Location} {entries : List (Location × Entry)}
    (hvacant : ∀ found ∈ entries, ¬target <+: found.1) (location : Location) :
    (entries.map fun found => (carried source target found.1, found.2)).lookup location =
      if target <+: location then entries.lookup (source ++ location.drop target.length)
      else if source <+: location then none
      else entries.lookup location := by
  induction entries with
  | nil => simp
  | cons found rest induction =>
      obtain ⟨key, entry⟩ := found
      have hiff := @eq_carried_iff source target key (hvacant (key, entry) List.mem_cons_self) location
      have hrest := induction fun other hother => hvacant other (List.mem_cons_of_mem _ hother)
      rw [List.map_cons, List.lookup_cons, hrest]
      by_cases htarget : target <+: location
      · have hsame : (location == carried source target key) =
            (source ++ location.drop target.length == key) := by
          rw [Bool.eq_iff_iff, beq_iff_eq, beq_iff_eq, hiff, if_pos htarget]
        rw [if_pos htarget, if_pos htarget, hsame, List.lookup_cons]
      · rw [if_neg htarget] at hiff
        rw [if_neg htarget, if_neg htarget]
        by_cases hsource : source <+: location
        · have hmiss : (location == carried source target key) = false := by
            rw [← Bool.not_eq_true, beq_iff_eq, hiff]
            exact fun hboth => hboth.1 hsource
          rw [if_pos hsource, if_pos hsource, hmiss]
        · have hsame : (location == carried source target key) = (location == key) := by
            rw [Bool.eq_iff_iff, beq_iff_eq, beq_iff_eq, hiff]
            exact and_iff_right hsource
          rw [if_neg hsource, if_neg hsource, hsame, List.lookup_cons]

@[simp]
theorem find?_nil (tree : FileTree) : tree.find? [] = some .directory := rfl

theorem find?_of_ne_nil (tree : FileTree) {location : Location} (hne : location ≠ []) :
    tree.find? location = tree.entries.lookup location := if_neg hne

theorem find?_insert (tree : FileTree) {location : Location} (entry : Entry) (hne : location ≠ [])
    (other : Location) :
    (tree.insert location entry).find? other =
      if other = location then some entry else tree.find? other := by
  by_cases hroot : other = []
  · subst hroot
    simp [Ne.symm hne]
  rw [find?_of_ne_nil _ hroot, find?_of_ne_nil tree hroot, insert]
  by_cases hsame : other = location
  · subst hsame
    simp
  · have hmiss : (other == location) = false := by simpa using hsame
    rw [List.lookup_cons, hmiss, if_neg hsame]
    have hfilter := lookup_filter (fun key => key ≠ location) tree.entries other
    simpa [hsame] using hfilter

namespace Sound

variable {tree : FileTree}

theorem directory_of_prefix (hsound : tree.Sound) {upper lower : Location}
    (hlower : (tree.find? lower).isSome) (hbegins : upper <+: lower) (hne : upper ≠ lower) :
    tree.find? upper = some .directory := by
  obtain ⟨rest, rfl⟩ := hbegins
  induction rest using List.reverseRecOn with
  | nil => exact absurd (List.append_nil upper).symm hne
  | append_singleton front segment induction =>
      rw [← List.append_assoc] at hlower
      have hfront := hsound.parents _ _ hlower
      by_cases hnil : front = []
      · simpa [hnil] using hfront
      · apply induction (by simp [hfront])
        intro hsame
        exact hnil (List.self_eq_append_right.1 hsame)

theorem find?_below (hsound : tree.Sound) {upper lower : Location}
    (hupper : tree.find? upper ≠ some .directory) (hbegins : upper <+: lower) (hne : upper ≠ lower) :
    tree.find? lower = none := by
  cases hlower : tree.find? lower with
  | none => rfl
  | some entry =>
      exact absurd (hsound.directory_of_prefix (by simp [hlower]) hbegins hne) hupper

theorem find?_append_of_vacant (hsound : tree.Sound) {location : Location}
    (hvacant : tree.find? location = none) (below : Location) :
    tree.find? (location ++ below) = none := by
  cases below with
  | nil => rw [List.append_nil, hvacant]
  | cons segment rest =>
      exact hsound.find?_below (by simp [hvacant]) (List.prefix_append _ _) (by simp)

theorem find?_erase (hsound : tree.Sound) {location : Location}
    (hleaf : tree.find? location ≠ some .directory) (other : Location) :
    (tree.erase location).find? other = if other = location then none else tree.find? other := by
  by_cases hroot : other = []
  · subst hroot
    have hne : [] ≠ location := by
      rintro rfl
      exact hleaf rfl
    simp [hne]
  rw [find?_of_ne_nil _ hroot, erase]
  have hfilter := lookup_filter (fun key => !location.isPrefixOf key) tree.entries other
  rw [hfilter, ← find?_of_ne_nil tree hroot]
  by_cases hbegins : location <+: other
  · rw [List.isPrefixOf_iff_prefix.2 hbegins]
    by_cases hsame : other = location
    · simp [hsame]
    · simp [hsame, hsound.find?_below hleaf hbegins (Ne.symm hsame)]
  · have hsame : other ≠ location := by
      rintro rfl
      exact hbegins (List.prefix_refl other)
    have hfalse : location.isPrefixOf other = false := by
      rw [Bool.eq_false_iff]
      exact fun htrue => hbegins (List.isPrefixOf_iff_prefix.1 htrue)
    simp [hfalse, hsame]

theorem not_isPrefix_of_directory (hsound : tree.Sound) {upper lower : Location}
    (hupper : tree.find? upper ≠ some .directory) (hlower : tree.find? lower = some .directory) :
    ¬upper <+: lower := by
  intro hbegins
  by_cases hsame : upper = lower
  · exact hupper (hsame ▸ hlower)
  · exact hupper (hsound.directory_of_prefix (by simp [hlower]) hbegins hsame)

/-- Moving makes what was at and below the source stand at and below the target. -/
theorem find?_move (hsound : tree.Sound) {source target : Location}
    (hsource : (tree.find? source).isSome) (htarget : tree.find? target ≠ some .directory)
    (houtside : ¬source <+: target) (other : Location) :
    (tree.move source target).find? other =
      if target <+: other then tree.find? (source ++ other.drop target.length)
      else if source <+: other then none
      else tree.find? other := by
  have htargetRoot : target ≠ [] := by
    rintro rfl
    exact htarget rfl
  have hsourceRoot : source ≠ [] := by
    rintro rfl
    exact houtside List.nil_prefix
  have hvacant : ∀ found ∈ (tree.erase target).entries, ¬target <+: found.1 := by
    intro found hfound hbegins
    have hkept := (List.mem_filter.1 hfound).2
    rw [List.isPrefixOf_iff_prefix.2 hbegins] at hkept
    exact Bool.noConfusion hkept
  have herase := hsound.find?_erase htarget
  by_cases hroot : other = []
  · subst hroot
    simp [hsourceRoot, htargetRoot]
  rw [find?_of_ne_nil _ hroot, move, lookup_map_carried hvacant]
  by_cases hbelow : target <+: other
  · rw [if_pos hbelow, if_pos hbelow, ← find?_of_ne_nil _ (List.append_ne_nil_of_left_ne_nil hsourceRoot _),
      herase, if_neg]
    rintro hsame
    exact houtside ⟨_, hsame⟩
  · rw [if_neg hbelow, if_neg hbelow]
    split
    · rfl
    · rw [← find?_of_ne_nil _ hroot, herase, if_neg]
      rintro rfl
      exact hbelow (List.prefix_refl _)

/-! ## Changes to a sound tree -/

theorem insert_directory (hsound : tree.Sound) {location : Location} (hne : location ≠ [])
    (hparent : tree.find? location.dropLast = some .directory) :
    (tree.insert location .directory).Sound := by
  have hfind := tree.find?_insert .directory hne
  refine ⟨?_, ?_, ?_, ?_⟩
  · rw [hfind]
    split
    · rfl
    · exact hsound.home
  · intro upper segment hthere
    rw [hfind] at hthere ⊢
    split at hthere
    · next hsame =>
      rw [← hsame, List.dropLast_concat] at hparent
      split
      · rfl
      · exact hparent
    · split
      · rfl
      · exact hsound.parents upper segment hthere
  · intro first second number hfirst hsecond
    rw [hfind] at hfirst hsecond
    split at hfirst
    · simp at hfirst
    · split at hsecond
      · simp at hsecond
      · exact hsound.distinct first second number hfirst hsecond
  · intro other number hother
    rw [hfind] at hother
    split at hother
    · simp at hother
    · exact hsound.stored other number hother

theorem insert_file (hsound : tree.Sound) {location : Location} (hne : location ≠ [])
    (hvacant : tree.find? location = none)
    (hparent : tree.find? location.dropLast = some .directory) (bytes : Bytes) :
    Sound { tree.insert location (.leaf (.file tree.contents.size)) with
      contents := tree.contents.push bytes } := by
  have hfind : ∀ other, find? { tree.insert location (.leaf (.file tree.contents.size)) with
      contents := tree.contents.push bytes } other =
        if other = location then some (.leaf (.file tree.contents.size)) else tree.find? other :=
    tree.find?_insert _ hne
  refine ⟨?_, ?_, ?_, ?_⟩
  · rw [hfind, if_neg]
    · exact hsound.home
    · intro hsame
      have hhome := hsound.home
      rw [show tree.home = location from hsame, hvacant] at hhome
      exact absurd hhome (by simp)
  · intro upper segment hthere
    rw [hfind] at hthere ⊢
    have hupper : tree.find? upper = some .directory := by
      split at hthere
      · next hsame =>
        rwa [← hsame, List.dropLast_concat] at hparent
      · exact hsound.parents upper segment hthere
    rw [if_neg]
    · exact hupper
    · rintro rfl
      simp [hvacant] at hupper
  · intro first second number hfirst hsecond
    rw [hfind] at hfirst hsecond
    split at hfirst <;> split at hsecond
    · next hfirstSame hsecondSame => rw [hfirstSame, hsecondSame]
    · obtain rfl : tree.contents.size = number := by simpa using hfirst
      exact absurd (hsound.stored second _ hsecond) (Nat.lt_irrefl _)
    · obtain rfl : tree.contents.size = number := by simpa using hsecond
      exact absurd (hsound.stored first _ hfirst) (Nat.lt_irrefl _)
    · exact hsound.distinct first second number hfirst hsecond
  · intro other number hother
    rw [hfind] at hother
    simp only [Array.size_push]
    split at hother
    · obtain rfl : tree.contents.size = number := by simpa using hother
      exact Nat.lt_succ_self _
    · exact Nat.lt_succ_of_lt (hsound.stored other number hother)

theorem store (hsound : tree.Sound) (number : Nat) (bytes : Bytes) :
    (tree.store number bytes).Sound where
  home := hsound.home
  parents := hsound.parents
  distinct := hsound.distinct
  stored location other hother := by
    simpa [FileTree.store] using hsound.stored location other hother

theorem erase (hsound : tree.Sound) {location : Location} {leaf : Target}
    (hleaf : tree.find? location = some (.leaf leaf)) : (tree.erase location).Sound := by
  have hne : tree.find? location ≠ some .directory := by simp [hleaf]
  have hfind := hsound.find?_erase hne
  have hkept : ∀ other, tree.find? other = some .directory →
      (tree.erase location).find? other = some .directory := by
    intro other hother
    rw [hfind, if_neg]
    · exact hother
    · rintro rfl
      exact hne hother
  refine ⟨hkept _ hsound.home, ?_, ?_, ?_⟩
  · intro upper segment hthere
    apply hkept
    rw [hfind] at hthere
    split at hthere
    · exact absurd hthere (by simp)
    · exact hsound.parents upper segment hthere
  · intro first second number hfirst hsecond
    rw [hfind] at hfirst hsecond
    split at hfirst
    · exact absurd hfirst (by simp)
    · split at hsecond
      · exact absurd hsecond (by simp)
      · exact hsound.distinct first second number hfirst hsecond
  · intro other number hother
    rw [hfind] at hother
    split at hother
    · exact absurd hother (by simp)
    · exact hsound.stored other number hother

section

variable (hsound : tree.Sound) {source target : Location} (hsource : (tree.find? source).isSome)
  (htarget : tree.find? target ≠ some .directory) (houtside : ¬source <+: target)
include hsound hsource htarget houtside

theorem find?_move_directory {location : Location} (hlocation : tree.find? location = some .directory)
    (hoff : ¬source <+: location) : (tree.move source target).find? location = some .directory := by
  rw [hsound.find?_move hsource htarget houtside, if_neg, if_neg hoff]
  · exact hlocation
  · exact hsound.not_isPrefix_of_directory htarget hlocation

theorem exists_origin_of_move {location : Location} {entry : Entry}
    (hentry : (tree.move source target).find? location = some entry) :
    ∃ origin, tree.find? origin = some entry ∧ location = carried source target origin := by
  rw [hsound.find?_move hsource htarget houtside] at hentry
  split at hentry
  · next hbegins =>
    obtain ⟨rest, rfl⟩ := hbegins
    rw [List.drop_left] at hentry
    exact ⟨source ++ rest, hentry, (carried_append _ _ _).symm⟩
  · split at hentry
    · exact absurd hentry (by simp)
    · next hoff => exact ⟨location, hentry, (carried_of_not_isPrefix hoff _).symm⟩

/-- What was moved stands in directories. -/
theorem parents_move (hparent : tree.find? target.dropLast = some .directory) {location : Location}
    {segment : Path.Segment}
    (hthere : ((tree.move source target).find? (location ++ [segment])).isSome) :
    (tree.move source target).find? location = some .directory := by
  have hfind := hsound.find?_move hsource htarget houtside
  rw [hfind] at hthere
  split at hthere
  · next hbegins =>
    rcases List.prefix_concat_iff.1 hbegins with hsame | ⟨rest, rfl⟩
    · rw [hsame, List.dropLast_concat] at hparent
      refine hsound.find?_move_directory hsource htarget houtside hparent fun hoff => houtside ?_
      rw [hsame]
      exact hoff.trans (List.prefix_append _ _)
    · rw [List.append_assoc, List.drop_left, ← List.append_assoc] at hthere
      rw [hfind, if_pos (List.prefix_append _ _), List.drop_left]
      exact hsound.parents _ segment hthere
  · split at hthere
    · exact absurd hthere (by simp)
    · next hoff =>
      exact hsound.find?_move_directory hsource htarget houtside
        (hsound.parents location segment hthere) fun hbegins =>
          hoff (hbegins.trans (List.prefix_append _ _))

end

/-- Moving a file or a whole directory leaves the tree sound. -/
theorem move (hsound : tree.Sound) {source target : Location}
    (hsource : (tree.find? source).isSome) (htarget : tree.find? target ≠ some .directory)
    (hparent : tree.find? target.dropLast = some .directory) (houtside : ¬source <+: target) :
    (tree.move source target).Sound := by
  refine ⟨?_, ?_, ?_, ?_⟩
  · change (tree.move source target).find? (carried source target tree.home) = _
    by_cases hbegins : source <+: tree.home
    · obtain ⟨rest, hrest⟩ := hbegins
      rw [← hrest, carried_append, hsound.find?_move hsource htarget houtside,
        if_pos (List.prefix_append _ _), List.drop_left, hrest]
      exact hsound.home
    · rw [carried_of_not_isPrefix hbegins]
      exact hsound.find?_move_directory hsource htarget houtside hsound.home hbegins
  · intro location segment hthere
    exact hsound.parents_move hsource htarget houtside hparent hthere
  · intro first second number hfirst hsecond
    obtain ⟨firstOrigin, hfirstFile, rfl⟩ :=
      hsound.exists_origin_of_move hsource htarget houtside hfirst
    obtain ⟨secondOrigin, hsecondFile, rfl⟩ :=
      hsound.exists_origin_of_move hsource htarget houtside hsecond
    rw [hsound.distinct _ _ number hfirstFile hsecondFile]
  · intro location number hlocation
    obtain ⟨origin, hfile, -⟩ := hsound.exists_origin_of_move hsource htarget houtside hlocation
    exact hsound.stored origin number hfile

end Sound

/-! ## Contents -/

theorem exists_target_of_create {tree created : FileTree} {path : List Char} {handle : Handle}
    (hcreate : tree.create path = .ok (handle, created)) :
    ∃ target opened, tree.openTarget path = .ok (target, opened) ∧ handle = ⟨target, some 0⟩ ∧
      created = match target with
        | .file number => opened.store number []
        | .device _ => opened := by
  cases hopen : tree.openTarget path with
  | error fault => simp [create, hopen, Except.map] at hcreate
  | ok result =>
      simp only [create, hopen, Except.map] at hcreate
      obtain ⟨rfl, rfl⟩ := Prod.mk.inj (Except.ok.inj hcreate)
      exact ⟨result.1, result.2, rfl, rfl, rfl⟩

theorem read_store_self {tree : FileTree} {file : Nat} (hlt : file < tree.contents.size) (bytes : Bytes) :
    (tree.store file bytes).read file = bytes := by
  simp [read, store, Array.getD_eq_getD_getElem?, hlt]

theorem read_store_of_ne {tree : FileTree} {file other : Nat} (hne : other ≠ file) (bytes : Bytes) :
    (tree.store file bytes).read other = tree.read other := by
  simp [read, store, Array.getD_eq_getD_getElem?, Ne.symm hne]

theorem store_read (tree : FileTree) (file : Nat) : tree.store file (tree.read file) = tree := by
  have hcontents : tree.contents.setIfInBounds file (tree.read file) = tree.contents := by
    apply Array.ext
    · exact Array.size_setIfInBounds
    · intro index hleft hright
      by_cases hsame : file = index
      · subst hsame
        simp [read, Array.getD_eq_getD_getElem?, hright]
      · rw [Array.getElem_setIfInBounds_ne hright hsame]
  rw [store, hcontents]

theorem read_of_contents_eq_push {tree opened : FileTree} {bytes : Bytes}
    (hcontents : opened.contents = tree.contents.push bytes) {file : Nat}
    (hlt : file < tree.contents.size) : opened.read file = tree.read file := by
  simp [read, hcontents, Array.getD_eq_getD_getElem?, Array.getElem?_push, hlt, Nat.ne_of_lt hlt]

/-! ## The initial tree -/

theorem mem_of_find? {tree : FileTree} {location : Location} {entry : Entry} (hne : location ≠ [])
    (hfind : tree.find? location = some entry) : (location, entry) ∈ tree.entries := by
  rw [find?_of_ne_nil tree hne, List.lookup_eq_some_iff] at hfind
  obtain ⟨front, rest, hentries, -⟩ := hfind
  rw [hentries]
  exact List.mem_append_right front List.mem_cons_self

theorem sound_initial : initial.Sound := by
  have hparents : ∀ found ∈ initial.entries, initial.find? found.1.dropLast = some .directory := by
    decide
  have hfiles : ∀ location number, initial.find? location ≠ some (.leaf (.file number)) := by
    intro location number hfile
    have hne : location ≠ [] := by
      rintro rfl
      simp at hfile
    simpa [initial] using mem_of_find? hne hfile
  refine ⟨by decide, ?_, ?_, ?_⟩
  · intro location segment hthere
    obtain ⟨entry, hentry⟩ := Option.isSome_iff_exists.1 hthere
    have hparent := hparents _ (mem_of_find? (by simp) hentry)
    rwa [List.dropLast_concat] at hparent
  · intro first second number hfirst
    exact absurd hfirst (hfiles first number)
  · intro location number hfile
    exact absurd hfile (hfiles location number)

end LogRelay.FileTree
