import LogRelay.Proofs.Lookup
import LogRelay.Registry

/-!
# Who holds a name

Granting a name makes the new claim its holder, whoever held it before, and dropping a claim frees its name
if the claim still holds it. Neither changes who holds any other name.
-/

namespace LogRelay

namespace Registry

variable {registry : Registry} {claim : Claim}

theorem lookup_without (holders : List (String × UInt64)) (name other : String) :
    (without holders name).lookup other = if other = name then none else holders.lookup other := by
  have hfilter := lookup_filter (fun held => held ≠ name) holders other
  rw [without, hfilter]
  by_cases hother : other = name <;> simp [hother]

theorem holder?_grant (registry : Registry) (name other : String) :
    (registry.grant name).2.holder? other =
      if other = name then some registry.nextNumber else registry.holder? other := by
  by_cases hother : other = name
  · simp [grant, holder?, hother]
  · have hne : (other == name) = false := beq_false_of_ne hother
    simp [grant, holder?, List.lookup_cons, hne, lookup_without, hother]

theorem holder?_drop (registry : Registry) (claim : Claim) (other : String) :
    (registry.drop claim).1.holder? other =
      if other = claim.name ∧ registry.holder? claim.name = some claim.number then none
      else registry.holder? other := by
  rw [drop]
  by_cases hholds : registry.holder? claim.name = some claim.number
  · rw [if_pos hholds]
    simp only [hholds, and_true]
    exact lookup_without _ _ _
  · rw [if_neg hholds, if_neg fun hboth => hholds hboth.2]

theorem claim_of_none {name : String} {replace : Bool}
    (hclaim : (registry.claim name replace).1 = none) :
    (registry.claim name replace).2.1 = registry ∧ registry.isHeld name = true ∧ replace = false := by
  rw [claim] at hclaim ⊢
  cases hheld : registry.isHeld name <;> cases replace <;> simp_all

theorem claim_of_some {name : String} {replace : Bool}
    (hclaim : (registry.claim name replace).1 = some claim) :
    claim = (registry.grant name).1 ∧ (registry.claim name replace).2.1 = (registry.grant name).2 ∧
      (replace = false → registry.isHeld name = false) := by
  rw [Registry.claim] at hclaim ⊢
  cases hheld : registry.isHeld name <;> cases replace <;> simp_all

theorem holder?_drop_of_claim {name : String} {replace : Bool}
    (hclaim : (registry.claim name replace).1 = some claim) (other : String) :
    ((registry.claim name replace).2.1.drop claim).1.holder? other =
      if other = name then none else registry.holder? other := by
  obtain ⟨rfl, hregistry, -⟩ := claim_of_some hclaim
  have hholder : (registry.grant name).2.holder? name = some registry.nextNumber := by
    rw [holder?_grant, if_pos rfl]
  rw [hregistry, holder?_drop]
  by_cases hother : other = name
  · rw [if_pos ⟨hother, hholder⟩, if_pos hother]
  · rw [if_neg fun hboth => hother hboth.1, holder?_grant, if_neg hother, if_neg hother]

theorem isHeld_drop_of_claim {name : String} {replace : Bool}
    (hclaim : (registry.claim name replace).1 = some claim) :
    ((registry.claim name replace).2.1.drop claim).1.isHeld name = false := by
  rw [isHeld, holder?_drop_of_claim hclaim, if_pos rfl, Option.isSome_none]

theorem nextNumber_drop (registry : Registry) (claim : Claim) :
    (registry.drop claim).1.nextNumber = registry.nextNumber := by
  rw [drop]
  split <;> rfl

theorem nextNumber_claim (registry : Registry) (name : String) (replace : Bool) :
    (registry.claim name replace).2.1.nextNumber =
      if (registry.claim name replace).1.isSome then registry.nextNumber + 1
      else registry.nextNumber := by
  rw [claim]
  cases registry.isHeld name <;> cases replace <;> rfl

end Registry

end LogRelay
