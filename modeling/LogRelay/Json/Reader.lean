import LogRelay.Json.Tree
import LogRelay.Json.Value

/-!
# Reading JSON values

Reading a value in full checks every string for lone surrogates, every number for its size, and the
depth of nesting. Skipping a value checks only that it is well formed. Both go from left to right and
report the first fault.
-/

namespace LogRelay.Json

/-- Whether a code unit begins a pair. -/
def isHighUnit (unit : Nat) : Bool := 0xd800 ≤ unit && unit ≤ 0xdbff

/-- Whether a code unit ends a pair. -/
def isLowUnit (unit : Nat) : Bool := 0xdc00 ≤ unit && unit ≤ 0xdfff

/-- The character that a pair of code units stands for. -/
def joinUnits (high low : Nat) : Char :=
  Char.ofNat (0x10000 + (high - 0xd800) * 1024 + (low - 0xdc00))

/-- The characters of a string; code units must make up characters. -/
def decodeGlyphs (fault : Option Fault) : List Glyph → Except Fault (List Char)
  | [] =>
      match fault with
      | none => .ok []
      | some fault => .error fault
  | .plain char :: rest => (decodeGlyphs fault rest).map (char :: ·)
  | .coded unit :: rest =>
      if isLowUnit unit then .error .malformed
      else if isHighUnit unit then
        match rest with
        | .coded low :: later =>
            if isLowUnit low then (decodeGlyphs fault later).map (joinUnits unit low :: ·)
            else .error .malformed
        | .plain _ :: _ => .error .malformed
        | [] => .error (fault.getD .malformed)
      else (decodeGlyphs fault rest).map (Char.ofNat unit :: ·)

/-- The text of a string. -/
def StringText.decode (spelled : StringText) : Except Fault String :=
  (decodeGlyphs spelled.fault spelled.glyphs).map String.ofList

/-- The number that is spelled; one that is too big is a fault. -/
def NumberText.read (spelled : NumberText) : Except Fault Number :=
  match spelled.number? with
  | some value => .ok value
  | none => .error .malformed

/-- The fault of a number that breaks off. -/
def tornNumberFault (atEnd : Bool) : Fault := if atEnd then .truncated else .malformed

/-- How deeply arrays and objects may be nested. -/
def depthLimit : Nat := 127

/-- Reads a tree in full, with room for the given depth of arrays and objects. -/
def Tree.read : {layer : Layer} → (room : Nat) → Tree layer → Except Fault (Json layer)
  | _, _, .null => .ok .null
  | _, _, .bool value => .ok (.bool value)
  | _, _, .number spelled => spelled.read.map .number
  | _, _, .tornNumber atEnd => .error (tornNumberFault atEnd)
  | _, _, .string spelled => spelled.decode.map .string
  | _, _, .torn fault => .error fault
  | _, _, .absent fault => .error fault
  | _, 0, .array _ => .error .malformed
  | _, room + 1, .array items => (read room items).map .array
  | _, 0, .object _ => .error .malformed
  | _, room + 1, .object members => (read room members).map .object
  | _, _, .noItems => .ok .noItems
  | _, room, .item value rest => do
      let value ← read room value
      let rest ← read room rest
      return .item value rest
  | _, _, .itemsCut fault => .error fault
  | _, _, .itemsDangling fault => .error fault
  | _, _, .noMembers => .ok .noMembers
  | _, room, .member name value rest => do
      let name ← name.decode
      let value ← read room value
      let rest ← read room rest
      return insert name value rest
  | _, _, .misnamed _ => .error .malformed
  | _, _, .membersCut fault => .error fault
  | _, _, .membersDangling fault => .error fault

/-- Skips a tree, which need only be well formed. -/
def Tree.skip : {layer : Layer} → Tree layer → Except Fault Unit
  | _, .null => .ok ()
  | _, .bool _ => .ok ()
  | _, .number _ => .ok ()
  | _, .tornNumber _ => .error .malformed
  | _, .string spelled =>
      match spelled.fault with
      | none => .ok ()
      | some fault => .error fault
  | _, .torn fault => .error fault
  | _, .absent fault => .error fault
  | _, .array items => skip items
  | _, .object members => skip members
  | _, .noItems => .ok ()
  | _, .item value rest => do
      skip value
      skip rest
  | _, .itemsCut fault => .error fault
  | _, .itemsDangling fault => .error fault
  | _, .noMembers => .ok ()
  | _, .member name value rest => do
      match name.fault with
      | none => skip value
      | some fault => .error fault
      skip rest
  | _, .misnamed _ => .error .malformed
  | _, .membersCut fault => .error fault
  | _, .membersDangling fault => .error fault

/-- Reads a document whose value is read as given; nothing may follow the value. -/
def Document.read {α : Type} (document : Document) (read : Tree .value → Except Fault α) :
    Except Fault α :=
  match read document.root with
  | .ok value => if document.trailing then .error .malformed else .ok value
  | .error fault => .error fault

/-- Reads the value that a text spells. -/
def parse (text : String) : Except Fault (Json .value) :=
  (Document.ofText text).read (Tree.read depthLimit)

end LogRelay.Json
