import LogRelay.Json.Layer
import LogRelay.Json.Number
import LogRelay.Text.Utf8

/-!
# JSON values and their compact text

One inductive family holds values, the items of arrays and the members of objects, so that a proof by
induction covers all three. Members are inserted in the order of their names. The compact text has no
blanks outside strings and escapes only what must be.
-/

namespace LogRelay

/-- A JSON value, the items of an array, or the members of an object. -/
inductive Json : Json.Layer → Type where
  | null : Json .value
  | bool (value : Bool) : Json .value
  | number (value : Json.Number) : Json .value
  | string (text : String) : Json .value
  | array (items : Json .items) : Json .value
  | object (members : Json .members) : Json .value
  | noItems : Json .items
  | item (value : Json .value) (rest : Json .items) : Json .items
  | noMembers : Json .members
  | member (name : String) (value : Json .value) (rest : Json .members) : Json .members

namespace Json

/-- Members with one more, in the order of names. A member of the same name stays as it is; what is no
member has no place for one. -/
def insert (name : String) (value : Json .value) : {layer : Layer} → Json layer → Json layer
  | _, .noMembers => .member name value .noMembers
  | _, .member other found rest =>
      if name < other then .member name value (.member other found rest)
      else if name = other then .member other found rest
      else .member other found (insert name value rest)
  | _, other => other

/-- The value of the first member with a name. -/
def find? (name : String) : Json .members → Option (Json .value)
  | .noMembers => none
  | .member other found rest => if name = other then some found else find? name rest

/-- Names of members, in order. -/
def names : Json .members → List String
  | .noMembers => []
  | .member name _ rest => name :: names rest

/-- The hexadecimal digit of a value below sixteen, in lower case. -/
def hexDigit (value : Nat) : Char :=
  if value < 10 then Char.ofNat (48 + value) else Char.ofNat (87 + value)

/-- The characters that stand for one character inside a string. -/
def escape (char : Char) : List Char :=
  if char = '"' then ['\\', '"']
  else if char = '\\' then ['\\', '\\']
  else if char = '\x08' then ['\\', 'b']
  else if char = '\x0c' then ['\\', 'f']
  else if char = '\n' then ['\\', 'n']
  else if char = '\r' then ['\\', 'r']
  else if char = '\t' then ['\\', 't']
  else if char.toNat < 32 then
    ['\\', 'u', '0', '0', hexDigit (char.toNat / 16), hexDigit (char.toNat % 16)]
  else [char]

/-- A string between quotes. -/
def printString (text : String) : List Char := '"' :: text.toList.flatMap escape ++ ['"']

/-- The compact text of a value; of items and members, what stands between the brackets, with a comma
in front of every one if `following` holds and of every one but the first otherwise. -/
def printFrom : {layer : Layer} → (following : Bool) → Json layer → List Char
  | _, _, .null => ['n', 'u', 'l', 'l']
  | _, _, .bool true => ['t', 'r', 'u', 'e']
  | _, _, .bool false => ['f', 'a', 'l', 's', 'e']
  | _, _, .number value => value.print
  | _, _, .string text => printString text
  | _, _, .array items => '[' :: printFrom false items ++ [']']
  | _, _, .object members => '\x7b' :: printFrom false members ++ ['\x7d']
  | _, _, .noItems => []
  | _, following, .item value rest =>
      (if following then [','] else []) ++ printFrom false value ++ printFrom true rest
  | _, _, .noMembers => []
  | _, following, .member name value rest =>
      (if following then [','] else []) ++ printString name ++ ':' :: printFrom false value ++
        printFrom true rest

/-- The compact text of a value. -/
def print (value : Json .value) : List Char := printFrom false value

end Json

end LogRelay
