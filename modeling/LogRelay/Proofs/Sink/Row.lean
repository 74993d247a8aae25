import Mathlib.Logic.Function.Basic

/-!
# The row of rotated files

The files of a sink stand in a row by their numbers, with gaps where no file is. Moving the files up one
after the other, the greatest number first, keeps their order; only the file with the greatest number
can be lost, and only when another takes its place.
-/

namespace LogRelay

/-- What stands in a row of numbered places. -/
abbrev Row := Nat → Option Nat

namespace Row

/-- The row after what stands at a number has moved up by one. -/
def raise (row : Row) (number : Nat) : Row :=
  if (row number).isSome then
    Function.update (Function.update row number none) (number + 1) (row number)
  else row

/-- The row after everything below a number has moved up by one, the greatest number first. -/
def raiseAll (row : Row) : Nat → Row
  | 0 => row
  | number + 1 => raiseAll (row.raise number) number

/-- The row of what stands for the things in a row, if anything does. -/
def through (row : Row) (view : Nat → Option Nat) : Row := fun number => (row number).bind view

/-- What stands at the numbers from the given one down to one. -/
def shelved (row : Row) : Nat → List Nat
  | 0 => []
  | number + 1 => (row (number + 1)).toList ++ row.shelved number

/-- What a rotation with a greatest number pushes out of the row. -/
def pushedOut (row : Row) : Nat → Option Nat
  | 0 => row 0
  | number + 1 => if (row number).isSome then row (number + 1) else none

variable {row : Row}

theorem raise_of_none {number : Nat} (hnone : row number = none) : row.raise number = row := by
  simp [raise, hnone]

theorem raise_apply_of_some {number held : Nat} (hheld : row number = some held) (other : Nat) :
    row.raise number other =
      if other = number + 1 then some held else if other = number then none else row other := by
  simp [raise, hheld, Function.update_apply]

@[simp]
theorem raise_self (row : Row) (number : Nat) : row.raise number number = none := by
  cases hheld : row number with
  | none => rw [raise_of_none hheld, hheld]
  | some held => simp [raise_apply_of_some hheld]

theorem raise_of_lt {number other : Nat} (hlt : other < number) :
    row.raise number other = row other := by
  cases hheld : row number with
  | none => rw [raise_of_none hheld]
  | some held =>
      rw [raise_apply_of_some hheld, if_neg (by omega), if_neg (by omega)]

theorem raise_of_gt {number other : Nat} (hgt : number + 1 < other) :
    row.raise number other = row other := by
  cases hheld : row number with
  | none => rw [raise_of_none hheld]
  | some held =>
      rw [raise_apply_of_some hheld, if_neg (by omega), if_neg (by omega)]

theorem raiseAll_of_gt {count other : Nat} (hgt : count < other) :
    row.raiseAll count other = row other := by
  induction count generalizing row with
  | zero => rfl
  | succ number induction =>
      rw [raiseAll, induction (by omega), raise_of_gt hgt]

theorem raiseAll_self {number : Nat} : row.raiseAll (number + 1) 0 = none := by
  induction number generalizing row with
  | zero => simp [raiseAll]
  | succ number induction => rw [raiseAll, induction]

/-- What moves up was there before, at a number that is not greater. -/
theorem of_raiseAll {count number held : Nat} (hheld : row.raiseAll count number = some held) :
    ∃ lower ≤ number, row lower = some held := by
  induction count generalizing row with
  | zero => exact ⟨number, Nat.le_refl _, hheld⟩
  | succ last induction =>
      obtain ⟨lower, hle, hlower⟩ := induction hheld
      cases hlast : row last with
      | none => exact ⟨lower, hle, by rw [← raise_of_none hlast, hlower]⟩
      | some moved =>
          rw [raise_apply_of_some hlast] at hlower
          split at hlower
          · obtain rfl := Option.some.inj hlower
            exact ⟨last, by omega, hlast⟩
          · split at hlower
            · exact absurd hlower (by simp)
            · exact ⟨lower, hle, hlower⟩

theorem through_raise {view : Nat → Option Nat} {number : Nat}
    (hview : (row number).isSome → (row.through view number).isSome) :
    (row.raise number).through view = (row.through view).raise number := by
  cases hheld : row number with
  | none =>
      have hnone : row.through view number = none := by rw [through, hheld, Option.bind_none]
      rw [raise_of_none hheld, raise_of_none hnone]
  | some held =>
      obtain ⟨seen, hseen⟩ := Option.isSome_iff_exists.1 (hview (by simp [hheld]))
      funext other
      rw [raise_apply_of_some hseen, through, raise_apply_of_some hheld]
      rw [through, hheld, Option.bind_some] at hseen
      split
      · exact hseen
      · split
        · rfl
        · rfl

theorem through_raiseAll {view : Nat → Option Nat} {count : Nat}
    (hview : ∀ number < count, (row number).isSome → (row.through view number).isSome) :
    (row.raiseAll count).through view = (row.through view).raiseAll count := by
  induction count generalizing row with
  | zero => rfl
  | succ last induction =>
      rw [raiseAll, raiseAll, ← through_raise (hview last (Nat.lt_succ_self last))]
      apply induction
      intro number hlt
      rw [through, raise_of_lt hlt]
      exact hview number (by omega)

/-- What a number holds after everything below another has moved up: what stood before it, and if nothing
stood there, nothing, or at the greatest number what it held. -/
theorem raiseAll_succ {count number : Nat} (hlt : number < count) :
    row.raiseAll count (number + 1) =
      if (row number).isSome then row number else if number + 1 = count then row count else none := by
  induction count generalizing row with
  | zero => omega
  | succ last induction =>
      rw [raiseAll]
      by_cases hlast : number = last
      · subst hlast
        rw [raiseAll_of_gt (Nat.lt_succ_self _), if_pos rfl]
        cases hheld : row number with
        | none => rw [raise_of_none hheld, Option.isSome_none, if_neg Bool.false_ne_true]
        | some held => simp [raise_apply_of_some hheld]
      · rw [induction (by omega), raise_of_lt (by omega), raise_self, ite_self,
          if_neg (show ¬number + 1 = last + 1 by omega)]

theorem shelved_congr {other : Row} {count : Nat}
    (hsame : ∀ number, 0 < number → number ≤ count → row number = other number) :
    row.shelved count = other.shelved count := by
  induction count with
  | zero => rfl
  | succ number induction =>
      rw [shelved, shelved, hsame (number + 1) (by omega) (by omega),
        induction fun lower hpos hle => hsame lower hpos (by omega)]

theorem shelved_raise {number : Nat} :
    (if (row number).isSome then row (number + 1) else none).toList ++
      ((row.raise number).shelved (number + 1) ++ (row.raise number 0).toList) =
    row.shelved (number + 1) ++ (row 0).toList := by
  cases hheld : row number with
  | none => simp [raise_of_none hheld]
  | some held =>
      have hraised := raise_apply_of_some hheld
      cases number with
      | zero => simp [shelved, hraised, hheld]
      | succ number =>
          have hlower : (row.raise (number + 1)).shelved number = row.shelved number :=
            shelved_congr fun lower _ hle => raise_of_lt (by omega)
          simp [shelved, hraised, hheld, hlower]

theorem shelved_raiseAll {count : Nat} (hvacant : row count = none) :
    (row.raiseAll count).shelved count ++ (row.raiseAll count 0).toList =
      row.shelved count ++ (row 0).toList := by
  induction count generalizing row with
  | zero => rfl
  | succ number induction =>
      have hstep := @shelved_raise row number
      rw [hvacant, ite_self, Option.toList_none, List.nil_append] at hstep
      rw [raiseAll, ← hstep, shelved, shelved, raiseAll_of_gt (by omega), List.append_assoc,
        List.append_assoc, induction (raise_self row number)]

theorem pushedOut_append_raiseAll (row : Row) (number : Nat) :
    (row.pushedOut (number + 1)).toList ++ (row.raiseAll (number + 1)).shelved (number + 1) =
      row.shelved (number + 1) ++ (row 0).toList := by
  have hstep := @shelved_raise row number
  have hrest := @shelved_raiseAll (row.raise number) number (raise_self row number)
  have hzero : ((row.raiseAll (number + 1)) 0).toList = [] := by rw [raiseAll_self]; rfl
  rw [raiseAll] at hzero ⊢
  rw [hzero, List.append_nil] at hrest
  rw [pushedOut, ← hstep, shelved, shelved, raiseAll_of_gt (by omega), hrest]
  simp only [List.append_assoc]

end Row

end LogRelay
