import LogRelay.Text.Digits

/-!
# File paths

A path is a text whose segments are separated by slashes. Empty segments and single dots count for
nothing, except that a slash at the front means the root and a dot at the front stays. The name of a
file is cut at its last dot into stem and extension, unless that dot is its first character. A
rotated path carries a number between the two.
-/

namespace LogRelay.Path

/-- One part of a path between slashes. -/
abbrev Segment := List Char

/-- The segments of a path, empty ones included. -/
def split : List Char → List Segment
  | [] => [[]]
  | char :: rest =>
      if char = '/' then [] :: split rest
      else
        match split rest with
        | [] => [[char]]
        | first :: others => (char :: first) :: others

/-- Segments with slashes between them. -/
def join : List Segment → List Char
  | [] => []
  | [segment] => segment
  | segment :: rest => segment ++ '/' :: join rest

/-- The segment that names the directory itself. -/
def here : Segment := ['.']

/-- The segment that names the directory above. -/
def above : Segment := ['.', '.']

/-- Whether a segment counts for nothing behind the front of a path. -/
def isIdle (segment : Segment) : Bool := segment = [] || segment = here

/-- Segments without the idle ones at the end. -/
def trimEnd : List Segment → List Segment
  | [] => []
  | segment :: rest =>
      match trimEnd rest with
      | [] => if isIdle segment then [] else [segment]
      | kept => segment :: kept

/-- Segments without the idle ones at the end, the segment at the front being kept. -/
def trim : List Segment → List Segment
  | [] => []
  | front :: rest => front :: trimEnd rest

/-- Whether a segment can be the name of a file. -/
def isName (segment : Segment) : Bool := !isIdle segment && segment ≠ above

/-- The name of the file that a path leads to. -/
def fileName? (path : List Char) : Option Segment :=
  match (trim (split path)).getLast? with
  | some segment => if isName segment then some segment else none
  | none => none

/-- The path of the directory before the last segment that counts. -/
def parent (path : List Char) : List Char :=
  match trim (trim (split path)).dropLast with
  | [[]] => ['/']
  | segments => join segments

/-- A path with one more name at its end. -/
def append (path : List Char) (name : Segment) : List Char :=
  if path = [] ∨ path.getLast? = some '/' then path ++ name else path ++ '/' :: name

/-- A path that leads to another name in the same directory. -/
def withFileName (path : List Char) (name : Segment) : List Char :=
  append (if (fileName? path).isSome then parent path else path) name

/-- A name cut at its last dot. -/
def cutLastDot? : Segment → Option (Segment × Segment)
  | [] => none
  | char :: rest =>
      match cutLastDot? rest with
      | some parts => some (char :: parts.1, parts.2)
      | none => if char = '.' then some ([], rest) else none

/-- Stem and extension of a file name. -/
def stemAndExtension (name : Segment) : Segment × Option Segment :=
  match cutLastDot? name with
  | some (stem, extension) => if stem = [] then (name, none) else (stem, some extension)
  | none => (name, none)

/-- A file name with a number between stem and extension. -/
def numberedName (name : Segment) (number : Nat) : Segment :=
  let parts := stemAndExtension name
  parts.1 ++ '.' :: Digits.decimal number ++
    (match parts.2 with
    | some extension => '.' :: extension
    | none => [])

/-- The path of a rotated file; number zero is the path itself. -/
def numbered (path : List Char) (number : Nat) : List Char :=
  if number = 0 then path
  else withFileName path (numberedName ((fileName? path).getD []) number)

/-- The path of a rotated file as a text. -/
def rotated (path : String) (number : Nat) : String :=
  String.ofList (numbered path.toList number)

/-- The path of the directory that holds a file, as a text; empty if there is none to name. -/
def directory (path : String) : String :=
  let chars := path.toList
  match trim (split chars) with
  | [[]] => ""
  | _ => String.ofList (parent chars)

end LogRelay.Path
