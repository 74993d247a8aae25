import LogRelay.Event

/-!
# Names of loggers

A name is held by at most one claim at a time. A claim on a held name is refused unless it asks to take
the name over; a claim that lost its name that way no longer releases it. Claims are told apart by a
number that no two of them share.
-/

namespace LogRelay

/-- A claim on a logger name. -/
structure Claim where
  /-- The claimed name. -/
  name : String
  /-- The number of the claim. -/
  number : UInt64
deriving DecidableEq, Repr

/-- The names held at present. -/
structure Registry where
  /-- The held names, each with the number of its claim. -/
  holders : List (String × UInt64)
  /-- The number of the next claim. -/
  nextNumber : UInt64
deriving DecidableEq, Repr

namespace Registry

/-- The registry before any claim. -/
def empty : Registry := ⟨[], 1⟩

/-- The number of the claim that holds a name. -/
def holder? (registry : Registry) (name : String) : Option UInt64 :=
  registry.holders.lookup name

/-- Whether a name is held. -/
def isHeld (registry : Registry) (name : String) : Bool := (registry.holder? name).isSome

/-- The holders without a name. -/
def without (holders : List (String × UInt64)) (name : String) : List (String × UInt64) :=
  holders.filter fun holder => holder.1 ≠ name

/-- A registry in which a new claim holds a name. -/
def grant (registry : Registry) (name : String) : Claim × Registry :=
  (⟨name, registry.nextNumber⟩,
    ⟨(name, registry.nextNumber) :: without registry.holders name, registry.nextNumber + 1⟩)

/-- Claims a name, taking it over from its holder only if asked to. -/
def claim (registry : Registry) (name : String) (replace : Bool) :
    Option Claim × Registry × List Event :=
  let granted := registry.grant name
  if registry.isHeld name then
    if replace then (some granted.1, granted.2, [.replacingHolder name])
    else (none, registry, [.nameTaken name])
  else (some granted.1, granted.2, [])

/-- Drops a claim, which frees its name if it still holds it. -/
def drop (registry : Registry) (claim : Claim) : Registry × List Event :=
  if registry.holder? claim.name = some claim.number then
    ({ registry with holders := without registry.holders claim.name },
      [.nameReleased claim.name])
  else (registry, [])

end Registry

end LogRelay
