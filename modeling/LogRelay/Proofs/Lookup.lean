/-!
# Looking up in part of a list

The names held and the entries of a tree are lists of pairs in which the first pair with a key counts. Where
such a list is filtered by its keys, a key that is kept is found as before, and no other key is found.
-/

namespace LogRelay

variable {κ ν : Type} [BEq κ] [LawfulBEq κ]

theorem lookup_filter (keep : κ → Bool) (pairs : List (κ × ν)) (key : κ) :
    (pairs.filter fun pair => keep pair.1).lookup key = if keep key then pairs.lookup key else none := by
  induction pairs with
  | nil => simp
  | cons pair rest induction =>
      obtain ⟨held, value⟩ := pair
      by_cases hsame : key = held
      · subst hsame
        cases hkeep : keep key <;> simp [hkeep, induction]
      · have hother : (key == held) = false := beq_false_of_ne hsame
        cases hkeep : keep held <;> simp [hkeep, List.lookup_cons, hother, induction]

end LogRelay
