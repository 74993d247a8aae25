import LogRelay.Proofs.Files.Make
import LogRelay.Proofs.Text.Decoding
import LogRelay.Sink

/-!
# The slots of a sink

The rotated paths of a path lead to slots beside each other, each with a name of its own. Moving what
stands in a slot up by one either is refused and changes nothing, or moves the file or whole directory that
stands there. What moves leaves its slot vacant, and if the system accepts the path of a slot, then also
those of the slots before it.
-/

namespace LogRelay

namespace FileTree

variable {tree : FileTree} {path : List Char} {folder : List Path.Segment} {name : Path.Segment}

theorem spot_numbered (tree : FileTree) (hpath : Path.EndsIn path folder name) (number : Nat) :
    tree.spot (Path.numbered path number) =
      tree.origin path ++ folder.filter (fun segment => !Path.isIdle segment) ++
        [Path.nameAt name number] := by
  have horigin : tree.origin (Path.numbered path number) = tree.origin path := by
    rw [origin, origin]
    simp only [hpath.head?_numbered number]
  rw [spot, horigin, hpath.names_numbered, List.append_assoc]

theorem spot_numbered_injective (tree : FileTree) (hpath : Path.EndsIn path folder name)
    {first second : Nat}
    (hsame : tree.spot (Path.numbered path first) = tree.spot (Path.numbered path second)) :
    first = second := by
  rw [tree.spot_numbered hpath, tree.spot_numbered hpath] at hsame
  exact Path.nameAt_injective (List.singleton_inj.1 (List.append_cancel_left hsame))

theorem dropLast_spot_numbered (tree : FileTree) (hpath : Path.EndsIn path folder name)
    (number : Nat) :
    (tree.spot (Path.numbered path number)).dropLast = (tree.spot path).dropLast := by
  rw [tree.spot_numbered hpath, tree.spot_endsIn hpath, List.dropLast_concat, List.dropLast_concat]

theorem isPrefix_spot_numbered_iff (tree : FileTree) (hpath : Path.EndsIn path folder name)
    {first second : Nat} (below : Location) :
    tree.spot (Path.numbered path first) <+: tree.spot (Path.numbered path second) ++ below ↔
      first = second := by
  constructor
  · intro hbegins
    have hlength : (tree.spot (Path.numbered path first)).length =
        (tree.spot (Path.numbered path second)).length := by
      simp only [tree.spot_numbered hpath, List.length_append, List.length_singleton]
    have hsame := List.prefix_of_prefix_length_le hbegins (List.prefix_append _ _)
      (Nat.le_of_eq hlength)
    exact tree.spot_numbered_injective hpath (hsame.eq_of_length hlength)
  · rintro rfl
    exact List.prefix_append _ _

theorem not_isPrefix_dropLast_spot (tree : FileTree) (hpath : Path.EndsIn path folder name)
    (number : Nat) :
    ¬tree.spot (Path.numbered path number) <+: (tree.spot path).dropLast := by
  intro hbegins
  have hlength := hbegins.length_le
  rw [tree.spot_numbered hpath, tree.spot_endsIn hpath, List.dropLast_concat, List.length_append,
    List.length_singleton] at hlength
  exact Nat.not_succ_le_self _ hlength

theorem Sound.present_numbered_iff (hsound : tree.Sound) (hpath : Path.EndsIn path folder name)
    {number : Nat} :
    tree.present (Path.numbered path number) = true ↔
      Fits (Path.numbered path number) ∧
        (tree.find? (tree.spot (Path.numbered path number))).isSome := by
  obtain ⟨folder', hends, -⟩ := hpath.numbered number
  exact hsound.present_iff hends

theorem Sound.directory_of_slot (hsound : tree.Sound) (hpath : Path.EndsIn path folder name)
    {number : Nat} (hstands : (tree.find? (tree.spot (Path.numbered path number))).isSome)
    (other : Nat) : tree.find? (tree.spot (Path.numbered path other)).dropLast = some .directory := by
  obtain ⟨folder', hends, -⟩ := hpath.numbered number
  rw [tree.dropLast_spot_numbered hpath, ← tree.dropLast_spot_numbered hpath number]
  exact hsound.directory_of_spot hends hstands

/-- The system accepts the rotated paths before one that it accepts. -/
theorem Fits.numbered_of_succ (hpath : Path.EndsIn path folder name) (hbase : Fits path) {number : Nat}
    (hfits : Fits (Path.numbered path (number + 1))) : Fits (Path.numbered path number) := by
  cases number with
  | zero => exact hbase
  | succ number =>
      obtain ⟨front, hfront⟩ := hpath.numbered_eq_append
      have hdigit : ∀ {value : Nat}, ∀ char ∈ Digits.decimal value, char.isDigit = true :=
        fun char hmem => Digits.isDigit_of_mem_decimal hmem
      have hsize : Utf8.size (Path.numberedName name (number + 1)) ≤
          Utf8.size (Path.numberedName name (number + 1 + 1)) := by
        have hlength := @Path.length_decimal_le (number + 1) (number + 1 + 1) (Nat.le_succ _)
        simp only [Path.numberedName_eq, Utf8.size_append, Utf8.size, Utf8.size_of_isDigit hdigit]
        omega
      refine ⟨?_, ?_, ?_⟩
      · have hnul := hfits.noNul
        rw [hfront, Path.numberedName_eq] at hnul ⊢
        simp only [List.mem_append, List.mem_cons, not_or] at hnul ⊢
        refine ⟨hnul.1, ⟨hnul.2.1.1, by decide, fun hmem => ?_⟩, hnul.2.2⟩
        exact absurd (hdigit _ hmem) (by decide)
      · have hpathSize := hfits.size_le
        rw [hfront, Utf8.size_append] at hpathSize ⊢
        omega
      · have hnames := hfits.size_name_le
        rw [hpath.names_numbered] at hnames ⊢
        intro segment hsegment
        rcases List.mem_append.1 hsegment with hfolder | hlast
        · exact hnames segment (List.mem_append_left _ hfolder)
        · rw [List.mem_singleton.1 hlast]
          exact Nat.le_trans hsize (hnames _ (List.mem_append_right _ (List.mem_singleton_self _)))

/-! ## Moving to a vacant place -/

/-- A path that something can be moved to: no directory stands there. -/
structure Open (tree : FileTree) (path : List Char) : Prop where
  /-- The system accepts the path. -/
  fits : Fits path
  /-- What stands there, if anything, can be replaced. -/
  replaceable : tree.find? (tree.spot path) ≠ some .directory

/-- A path at which something can be put. -/
structure Vacant (tree : FileTree) (path : List Char) : Prop where
  /-- The system accepts the path. -/
  fits : Fits path
  /-- The directory is there. -/
  directory : tree.find? (tree.spot path).dropLast = some .directory
  /-- Nothing stands there. -/
  find?_eq : tree.find? (tree.spot path) = none

theorem Vacant.toOpen (hvacant : tree.Vacant path) : tree.Open path :=
  ⟨hvacant.fits, by simp [hvacant.find?_eq]⟩

theorem Sound.vacant_erase (hsound : tree.Sound) (hpath : Path.EndsIn path folder name)
    (hfits : Fits path) {leaf : Target} (hleaf : tree.find? (tree.spot path) = some (.leaf leaf)) :
    (tree.erase (tree.spot path)).Vacant path := by
  have hfind := hsound.find?_erase (show tree.find? (tree.spot path) ≠ some .directory by simp [hleaf])
  have hdirectory := hsound.directory_of_spot hpath (by simp [hleaf])
  refine ⟨hfits, ?_, ?_⟩
  · change (tree.erase (tree.spot path)).find? (tree.spot path).dropLast = _
    rw [hfind, if_neg]
    · exact hdirectory
    · intro hsame
      rw [hsame, hleaf] at hdirectory
      exact absurd hdirectory (by simp)
  · change (tree.erase (tree.spot path)).find? (tree.spot path) = none
    rw [hfind, if_pos rfl]

/-- Renaming to a vacant place outside of what is renamed moves it there. -/
theorem Sound.rename_of_vacant (hsound : tree.Sound) {source target : List Char}
    {sourceFolder targetFolder : List Path.Segment} {sourceName targetName : Path.Segment}
    (hsource : Path.EndsIn source sourceFolder sourceName)
    (htarget : Path.EndsIn target targetFolder targetName) (hfits : Fits source)
    (hstands : (tree.find? (tree.spot source)).isSome) (hvacant : tree.Vacant target)
    (houtside : ¬tree.spot source <+: tree.spot target) :
    tree.rename source target = .ok (tree.move (tree.spot source) (tree.spot target)) := by
  have hsourceLocate := hsound.locate_eq hsource hfits (hsound.directory_of_spot hsource hstands)
  have htargetLocate := hsound.locate_eq htarget hvacant.fits hvacant.directory
  obtain ⟨entry, hentry⟩ := Option.isSome_iff_exists.1 hstands
  cases entry with
  | directory =>
      have hfalse : (tree.spot source).isPrefixOf (tree.spot target) = false := by
        rw [← Bool.not_eq_true, List.isPrefixOf_iff_prefix]
        exact houtside
      simp [rename, hsourceLocate, htargetLocate, hentry, hvacant.find?_eq, hfalse]
  | leaf leaf =>
      have hne : tree.spot source ≠ tree.spot target := fun hsame =>
        houtside (hsame ▸ List.prefix_refl _)
      simp [rename, hsourceLocate, htargetLocate, hentry, hvacant.find?_eq, hne]

theorem move_erase (tree : FileTree) (source target : Location) :
    (tree.erase target).move source target = tree.move source target := by
  simp [move, erase, List.filter_filter]

/-- Moving what stands in a slot does not change where paths start. -/
theorem spot_move (tree : FileTree) (hpath : Path.EndsIn path folder name) (source other : Nat)
    (target : Location) :
    (tree.move (tree.spot (Path.numbered path source)) target).spot (Path.numbered path other) =
      tree.spot (Path.numbered path other) := by
  have horigin : (tree.move (tree.spot (Path.numbered path source)) target).origin path =
      tree.origin path := by
    unfold origin
    split
    · rfl
    · next hrelative =>
      apply carried_of_not_isPrefix
      intro hbegins
      have hlength := hbegins.length_le
      rw [tree.spot_numbered hpath, origin, if_neg hrelative] at hlength
      simp only [List.length_append, List.length_singleton] at hlength
      omega
  rw [spot_numbered _ hpath other, horigin, spot_numbered tree hpath other]

theorem isPrefix_spot_iff (tree : FileTree) (hpath : Path.EndsIn path folder name) {first second : Nat} :
    tree.spot (Path.numbered path first) <+: tree.spot (Path.numbered path second) ↔
      first = second := by
  rw [← tree.isPrefix_spot_numbered_iff hpath [], List.append_nil]

theorem not_isPrefix_spot_succ (tree : FileTree) (hpath : Path.EndsIn path folder name) (number : Nat) :
    ¬tree.spot (Path.numbered path number) <+: tree.spot (Path.numbered path (number + 1)) := by
  rw [tree.isPrefix_spot_iff hpath]
  omega

theorem Sound.move_slot (hsound : tree.Sound) (hpath : Path.EndsIn path folder name) {number : Nat}
    (hpresent : tree.present (Path.numbered path number) = true)
    (hopen : tree.Open (Path.numbered path (number + 1))) :
    (tree.move (tree.spot (Path.numbered path number))
      (tree.spot (Path.numbered path (number + 1)))).Sound := by
  obtain ⟨-, hstands⟩ := (hsound.present_numbered_iff hpath).1 hpresent
  exact hsound.move hstands hopen.replaceable (hsound.directory_of_slot hpath hstands _)
    (tree.not_isPrefix_spot_succ hpath number)

theorem Sound.find?_move_slot (hsound : tree.Sound) (hpath : Path.EndsIn path folder name) {number : Nat}
    (hpresent : tree.present (Path.numbered path number) = true)
    (hopen : tree.Open (Path.numbered path (number + 1))) (other : Location) :
    (tree.move (tree.spot (Path.numbered path number))
        (tree.spot (Path.numbered path (number + 1)))).find? other =
      if tree.spot (Path.numbered path (number + 1)) <+: other then
        tree.find? (tree.spot (Path.numbered path number) ++
          other.drop (tree.spot (Path.numbered path (number + 1))).length)
      else if tree.spot (Path.numbered path number) <+: other then none
      else tree.find? other :=
  hsound.find?_move ((hsound.present_numbered_iff hpath).1 hpresent).2 hopen.replaceable
    (tree.not_isPrefix_spot_succ hpath number) other

theorem Sound.vacant_of_not_present (hsound : tree.Sound) (hpath : Path.EndsIn path folder name)
    {number : Nat} (hfits : Fits (Path.numbered path number))
    (hdirectory : tree.find? (tree.spot path).dropLast = some .directory)
    (habsent : ¬tree.present (Path.numbered path number) = true) :
    tree.Vacant (Path.numbered path number) := by
  obtain ⟨folder', hends, -⟩ := hpath.numbered number
  refine ⟨hfits, ?_, hsound.find?_spot_of_not_present hends hfits habsent⟩
  rw [tree.dropLast_spot_numbered hpath]
  exact hdirectory

/-- A slot is vacant once what stood there has moved up. -/
theorem Sound.vacant_move_slot (hsound : tree.Sound) (hpath : Path.EndsIn path folder name) {number : Nat}
    (hpresent : tree.present (Path.numbered path number) = true)
    (hopen : tree.Open (Path.numbered path (number + 1))) :
    (tree.move (tree.spot (Path.numbered path number))
      (tree.spot (Path.numbered path (number + 1)))).Vacant (Path.numbered path number) := by
  obtain ⟨hfits, hstands⟩ := (hsound.present_numbered_iff hpath).1 hpresent
  have hdirectory := hsound.directory_of_slot hpath hstands number
  have hfind := hsound.find?_move_slot hpath hpresent hopen
  refine ⟨hfits, ?_, ?_⟩
  · rw [tree.spot_move hpath, hfind, tree.dropLast_spot_numbered hpath,
      if_neg (tree.not_isPrefix_dropLast_spot hpath _), if_neg (tree.not_isPrefix_dropLast_spot hpath _),
      ← tree.dropLast_spot_numbered hpath number]
    exact hdirectory
  · rw [tree.spot_move hpath, hfind, if_neg, if_pos (List.prefix_refl _)]
    rw [tree.isPrefix_spot_iff hpath]
    omega

end FileTree

namespace Sink

open FileTree

variable {sink : Sink} {tree : FileTree} {folder : List Path.Segment} {name : Path.Segment}

/-! ## Moving up -/

theorem moveUp_eq (sink : Sink) (number : Nat) (tree : FileTree) :
    sink.moveUp number tree =
      if tree.present (Path.numbered sink.path.toList number) then
        (if tree.present (Path.numbered sink.path.toList (number + 1)) then
          tree.attempt fun tree => tree.removeFile (Path.numbered sink.path.toList (number + 1))
        else (tree, none)).andThen fun cleared =>
          cleared.attempt fun tree =>
            tree.rename (Path.numbered sink.path.toList number)
              (Path.numbered sink.path.toList (number + 1))
      else (tree, none) := rfl

/-- Moving up what stands in a slot, with the place above it open, moves it and everything below it. -/
theorem moveUp_of_open (hsound : tree.Sound) (hpath : Path.EndsIn sink.path.toList folder name)
    {number : Nat} (hpresent : tree.present (Path.numbered sink.path.toList number) = true)
    (hopen : tree.Open (Path.numbered sink.path.toList (number + 1))) :
    sink.moveUp number tree =
      (tree.move (tree.spot (Path.numbered sink.path.toList number))
        (tree.spot (Path.numbered sink.path.toList (number + 1))), none) := by
  obtain ⟨sourceFolder, hsource, -⟩ := hpath.numbered number
  obtain ⟨targetFolder, htarget, -⟩ := hpath.numbered (number + 1)
  obtain ⟨hfits, hstands⟩ := (hsound.present_numbered_iff hpath).1 hpresent
  have houtside := tree.not_isPrefix_spot_succ hpath number
  have hdirectory := hsound.directory_of_slot hpath hstands (number + 1)
  have hrename := @Sound.rename_of_vacant tree hsound _ _ _ _ _ _ hsource htarget hfits hstands
  rw [moveUp_eq, if_pos hpresent]
  cases hfind : tree.find? (tree.spot (Path.numbered sink.path.toList (number + 1))) with
  | none =>
      have habsent : ¬tree.present (Path.numbered sink.path.toList (number + 1)) = true := by
        simp [hsound.present_numbered_iff hpath, hfind]
      rw [if_neg habsent]
      simp only [Attempt.andThen, attempt, hrename ⟨hopen.fits, hdirectory, hfind⟩ houtside]
  | some entry =>
      cases entry with
      | directory => exact absurd hfind hopen.replaceable
      | leaf leaf =>
          have hthere : tree.present (Path.numbered sink.path.toList (number + 1)) = true :=
            (hsound.present_numbered_iff hpath).2 ⟨hopen.fits, by simp [hfind]⟩
          have hremove : tree.removeFile (Path.numbered sink.path.toList (number + 1)) =
              .ok (tree.erase (tree.spot (Path.numbered sink.path.toList (number + 1)))) := by
            simp [removeFile, hsound.locate_eq htarget hopen.fits hdirectory, hfind]
          have hcleared := hsound.erase hfind
          have hstill : ((tree.erase (tree.spot (Path.numbered sink.path.toList (number + 1)))).find?
              (tree.spot (Path.numbered sink.path.toList number))).isSome := by
            rw [hsound.find?_erase hopen.replaceable, if_neg]
            · exact hstands
            · exact fun hsame => houtside (hsame ▸ List.prefix_refl _)
          have hclearedRename := hcleared.rename_of_vacant hsource htarget hfits hstill
            (hsound.vacant_erase htarget hopen.fits hfind) houtside
          rw [if_pos hthere]
          simp only [Attempt.andThen, attempt, hremove, hclearedRename]
          exact congrArg (·, none) (tree.move_erase _ _)

/-- Moving up what stands in a slot is refused, and changes nothing, if the place above it is not open. -/
theorem moveUp_of_not_open (hsound : tree.Sound) (hpath : Path.EndsIn sink.path.toList folder name)
    {number : Nat} (hpresent : tree.present (Path.numbered sink.path.toList number) = true)
    (hclosed : ¬tree.Open (Path.numbered sink.path.toList (number + 1))) :
    ∃ fault, sink.moveUp number tree = (tree, some fault) := by
  obtain ⟨targetFolder, htarget, -⟩ := hpath.numbered (number + 1)
  rw [moveUp_eq, if_pos hpresent]
  by_cases hthere : tree.present (Path.numbered sink.path.toList (number + 1)) = true
  · obtain ⟨hfits, hstands⟩ := (hsound.present_numbered_iff hpath).1 hthere
    have hfind : tree.find? (tree.spot (Path.numbered sink.path.toList (number + 1))) =
        some .directory := by
      by_contra hother
      exact hclosed ⟨hfits, hother⟩
    have hlocate := hsound.locate_eq htarget hfits (hsound.directory_of_spot htarget hstands)
    exact ⟨.system .isDirectory, by
      simp [hthere, Attempt.andThen, attempt, removeFile, hlocate, hfind, fail]⟩
  · have hlong : ¬Fits (Path.numbered sink.path.toList (number + 1)) := by
      intro hfits
      refine hclosed ⟨hfits, fun hfind => hthere ?_⟩
      exact (hsound.present_numbered_iff hpath).2 ⟨hfits, by simp [hfind]⟩
    obtain ⟨fault, hrename⟩ : ∃ fault, tree.rename (Path.numbered sink.path.toList number)
        (Path.numbered sink.path.toList (number + 1)) = .error fault := by
      cases hlocate : tree.locate (Path.numbered sink.path.toList (number + 1)) with
      | ok place => exact absurd (hsound.locate_ok htarget hlocate).2.2 hlong
      | error fault =>
          simp only [rename, hlocate]
          cases tree.locate (Path.numbered sink.path.toList number) with
          | error other => exact ⟨other, rfl⟩
          | ok place => exact ⟨fault, rfl⟩
    exact ⟨fault, by simp [hthere, Attempt.andThen, attempt, hrename]⟩

/-- What moving up comes to: nothing if nothing is there, and otherwise a refusal that changes nothing or a
move. -/
theorem moveUp_cases (sink : Sink) (hsound : tree.Sound)
    (hpath : Path.EndsIn sink.path.toList folder name) (number : Nat) :
    (¬tree.present (Path.numbered sink.path.toList number) = true ∧
        sink.moveUp number tree = (tree, none)) ∨
      (tree.present (Path.numbered sink.path.toList number) = true ∧
        ¬tree.Open (Path.numbered sink.path.toList (number + 1)) ∧
        ∃ fault, sink.moveUp number tree = (tree, some fault)) ∨
      (tree.present (Path.numbered sink.path.toList number) = true ∧
        tree.Open (Path.numbered sink.path.toList (number + 1)) ∧
        sink.moveUp number tree =
          (tree.move (tree.spot (Path.numbered sink.path.toList number))
            (tree.spot (Path.numbered sink.path.toList (number + 1))), none)) := by
  by_cases hpresent : tree.present (Path.numbered sink.path.toList number) = true
  · by_cases hopen : tree.Open (Path.numbered sink.path.toList (number + 1))
    · exact .inr (.inr ⟨hpresent, hopen, moveUp_of_open hsound hpath hpresent hopen⟩)
    · exact .inr (.inl ⟨hpresent, hopen, moveUp_of_not_open hsound hpath hpresent hopen⟩)
  · exact .inl ⟨hpresent, by rw [moveUp_eq, if_neg hpresent]⟩

end Sink

end LogRelay
