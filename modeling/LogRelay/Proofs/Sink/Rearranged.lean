import LogRelay.Proofs.Sink.Row
import LogRelay.Proofs.Sink.Slots

/-!
# Moves among the slots of a sink

While a sink moves its files up, every slot holds what one slot held at the beginning, or nothing. Which slot
that is forms a row, and each move raises the row.
-/

namespace LogRelay

namespace FileTree

/-- The tree after some moves among the slots of a path: a row tells for each slot which slot it holds. -/
structure Rearranged (before after : FileTree) (path : List Char) (row : Row) : Prop where
  /-- The tree is sound. -/
  sound : after.Sound
  /-- The paths lead to the same slots. -/
  spot_eq : ∀ number, after.spot (Path.numbered path number) = before.spot (Path.numbered path number)
  /-- No contents have changed. -/
  contents_eq : after.contents = before.contents
  /-- A slot holds what its origin held, at every location below. -/
  find?_slot : ∀ number, Fits (Path.numbered path number) → ∀ below,
    after.find? (before.spot (Path.numbered path number) ++ below) =
      (row number).bind fun origin => before.find? (before.spot (Path.numbered path origin) ++ below)
  /-- The system accepts the paths of slots that hold something. -/
  fits : ∀ number, (row number).isSome → Fits (Path.numbered path number)
  /-- What they hold was present. -/
  stands : ∀ number origin, row number = some origin → Fits (Path.numbered path origin) ∧
    (before.find? (before.spot (Path.numbered path origin))).isSome
  /-- Nothing else has moved. -/
  elsewhere : ∀ location,
    (∀ number, Fits (Path.numbered path number) →
      ¬before.spot (Path.numbered path number) <+: location) →
    after.find? location = before.find? location

/-- The row of the slots that are present. -/
def slots (tree : FileTree) (path : List Char) : Row := fun number =>
  if tree.present (Path.numbered path number) then some number else none

variable {before tree : FileTree} {path : List Char} {folder : List Path.Segment} {name : Path.Segment}
  {row : Row}

theorem Sound.rearranged (hsound : tree.Sound) (hpath : Path.EndsIn path folder name) :
    Rearranged tree tree path (tree.slots path) := by
  have hself : ∀ number origin, tree.slots path number = some origin →
      origin = number ∧ Fits (Path.numbered path number) ∧
        (tree.find? (tree.spot (Path.numbered path number))).isSome := by
    intro number origin horigin
    rw [slots] at horigin
    split at horigin
    · next hpresent =>
      exact ⟨(Option.some.inj horigin).symm, (hsound.present_numbered_iff hpath).1 hpresent⟩
    · exact absurd horigin (by simp)
  refine ⟨hsound, fun _ => rfl, rfl, ?_, ?_, ?_, fun _ _ => rfl⟩
  · intro number hfits below
    rw [slots]
    split
    · rfl
    · next hpresent =>
      obtain ⟨folder', hends, -⟩ := hpath.numbered number
      exact hsound.find?_append_of_vacant
        (hsound.find?_spot_of_not_present hends hfits hpresent) below
  · intro number hrow
    obtain ⟨origin, horigin⟩ := Option.isSome_iff_exists.1 hrow
    exact (hself number origin horigin).2.1
  · intro number origin horigin
    obtain ⟨rfl, hstands⟩ := hself number origin horigin
    exact hstands

namespace Rearranged

variable (hrearranged : Rearranged before tree path row)
include hrearranged

theorem find?_self {number : Nat} (hfits : Fits (Path.numbered path number)) :
    tree.find? (tree.spot (Path.numbered path number)) =
      (row number).bind fun origin => before.find? (before.spot (Path.numbered path origin)) := by
  have hslot := hrearranged.find?_slot number hfits []
  simpa only [hrearranged.spot_eq, List.append_nil] using hslot

theorem present_iff (hpath : Path.EndsIn path folder name) {number : Nat} :
    tree.present (Path.numbered path number) = true ↔ (row number).isSome := by
  rw [hrearranged.sound.present_numbered_iff hpath]
  constructor
  · rintro ⟨hfits, hstands⟩
    rw [hrearranged.find?_self hfits] at hstands
    cases hrow : row number with
    | none => simp [hrow] at hstands
    | some origin => rfl
  · intro hrow
    obtain ⟨origin, horigin⟩ := Option.isSome_iff_exists.1 hrow
    have hfits := hrearranged.fits number hrow
    refine ⟨hfits, ?_⟩
    rw [hrearranged.find?_self hfits, horigin]
    exact (hrearranged.stands number origin horigin).2

/-- Moving a slot up raises the row. -/
theorem move (hpath : Path.EndsIn path folder name) {number : Nat}
    (hpresent : tree.present (Path.numbered path number) = true)
    (hopen : tree.Open (Path.numbered path (number + 1))) :
    Rearranged before
      (tree.move (tree.spot (Path.numbered path number)) (tree.spot (Path.numbered path (number + 1))))
      path (row.raise number) := by
  have hrow := (hrearranged.present_iff hpath).1 hpresent
  have hfits := hrearranged.fits number hrow
  obtain ⟨origin, horigin⟩ := Option.isSome_iff_exists.1 hrow
  have hraise := Row.raise_apply_of_some horigin
  have hfind := hrearranged.sound.find?_move_slot hpath hpresent hopen
  simp only [hrearranged.spot_eq] at hfind ⊢
  refine ⟨?_, ?_, hrearranged.contents_eq, ?_, ?_, ?_, ?_⟩
  · have hsound := hrearranged.sound.move_slot hpath hpresent hopen
    rwa [hrearranged.spot_eq, hrearranged.spot_eq] at hsound
  · intro other
    have hspot := tree.spot_move hpath number other (tree.spot (Path.numbered path (number + 1)))
    simpa only [hrearranged.spot_eq] using hspot
  · intro other hother below
    rw [hfind, hraise]
    simp only [before.isPrefix_spot_numbered_iff hpath]
    split
    · next hnext =>
      subst hnext
      rw [if_pos rfl, List.drop_left, hrearranged.find?_slot number hfits, horigin]
    · next hnext =>
      rw [if_neg (Ne.symm hnext)]
      split
      · next hself => rw [if_pos hself.symm, Option.bind_none]
      · next hself => rw [if_neg (Ne.symm hself), hrearranged.find?_slot other hother]
  · intro other hheld
    rw [hraise] at hheld
    split at hheld
    · next hnext => exact hnext ▸ hopen.fits
    · split at hheld
      · exact absurd hheld (by simp)
      · exact hrearranged.fits other hheld
  · intro other held hheld
    rw [hraise] at hheld
    split at hheld
    · obtain rfl := Option.some.inj hheld
      exact hrearranged.stands number origin horigin
    · split at hheld
      · exact absurd hheld (by simp)
      · exact hrearranged.stands other held hheld
  · intro location hoff
    rw [hfind, if_neg (hoff _ hopen.fits), if_neg (hoff _ hfits)]
    exact hrearranged.elsewhere location hoff

end Rearranged

end FileTree

namespace Sink

open FileTree

variable {sink : Sink} {before tree moved : FileTree} {folder : List Path.Segment} {name : Path.Segment}
  {row : Row}

theorem rearranged_moveUp (hpath : Path.EndsIn sink.path.toList folder name) {number : Nat}
    (hrearranged : Rearranged before tree sink.path.toList row)
    (hmoved : sink.moveUp number tree = (moved, none)) :
    Rearranged before moved sink.path.toList (row.raise number) := by
  obtain ⟨habsent, hmove⟩ | ⟨-, -, fault, hmove⟩ | ⟨hpresent, hopen, hmove⟩ :=
    sink.moveUp_cases hrearranged.sound hpath number
  · obtain ⟨rfl, -⟩ := Prod.mk.inj (hmoved.symm.trans hmove)
    rw [hrearranged.present_iff hpath, Option.not_isSome_iff_eq_none] at habsent
    rwa [Row.raise_of_none habsent]
  · exact absurd (congrArg Prod.snd (hmoved.symm.trans hmove)) (by simp)
  · obtain ⟨rfl, -⟩ := Prod.mk.inj (hmoved.symm.trans hmove)
    exact hrearranged.move hpath hpresent hopen

theorem rearranged_moveAllUp (hpath : Path.EndsIn sink.path.toList folder name) {number : Nat}
    (hrearranged : Rearranged before tree sink.path.toList row)
    (hmoved : sink.moveAllUp number tree = (moved, none)) :
    Rearranged before moved sink.path.toList (row.raiseAll number) := by
  induction number generalizing tree row with
  | zero =>
      obtain ⟨rfl, -⟩ := Prod.mk.inj hmoved
      exact hrearranged
  | succ number induction =>
      rw [moveAllUp] at hmoved
      obtain ⟨middle, hfirst, hrest⟩ := Attempt.andThen_eq_none hmoved
      exact induction (rearranged_moveUp hpath hrearranged hfirst) hrest

end Sink

end LogRelay
