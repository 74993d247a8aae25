/-!
# Layers of JSON

Values, the items of arrays and the members of objects are three layers of one structure.
-/

namespace LogRelay.Json

/-- A value, the items of an array, or the members of an object. -/
inductive Layer where
  | value
  | items
  | members
deriving DecidableEq, Repr

end LogRelay.Json
