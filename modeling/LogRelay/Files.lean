import LogRelay.Fault
import LogRelay.Path
import LogRelay.Text.Utf8

/-!
# File trees

A tree maps locations to directories, regular files and devices. A regular file is known by a number,
so that an open file stays the same when its location is renamed or removed. Paths are followed one
segment at a time from the working directory or from the root, and every fault that can stop them is
reported.
-/

namespace LogRelay

/-- Names from the root down. -/
abbrev Location := List Path.Segment

/-- A device: one that swallows everything, and one that is always full. -/
inductive Device where
  | null
  | full
deriving DecidableEq, Repr

/-- What bytes can be written to. -/
inductive Target where
  | file (number : Nat)
  | device (device : Device)
deriving DecidableEq, Repr

/-- What stands at a location. -/
inductive Entry where
  | directory
  | leaf (target : Target)
deriving DecidableEq, Repr

/-- Where a path leads: to a directory that is there, or to a name in such a directory. -/
inductive Place where
  | directory (location : Location)
  | named (location : Location) (slash : Bool)
deriving DecidableEq, Repr

/-- A tree of files. -/
structure FileTree where
  /-- What stands where, below the root. -/
  entries : List (Location × Entry)
  /-- The contents of regular files, by number. -/
  contents : Array Bytes
  /-- The working directory. -/
  home : Location
deriving DecidableEq, Repr

/-- An open file. -/
structure Handle where
  /-- What is written to. -/
  target : Target
  /-- Where the next byte goes; at the end of the file if nothing is said. -/
  position : Option Nat
deriving DecidableEq, Repr

namespace FileTree

/-- A tree with an empty working directory and two devices. -/
def initial : FileTree where
  entries :=
    [(["dev".toList], .directory),
      (["dev".toList, "null".toList], .leaf (.device .null)),
      (["dev".toList, "full".toList], .leaf (.device .full)),
      (["home".toList], .directory)]
  contents := #[]
  home := ["home".toList]

/-- Greatest number of bytes in a name. -/
def nameLimit : Nat := 255

/-- Greatest number of bytes in a path. -/
def pathLimit : Nat := 4095

/-- What stands at a location. -/
def find? (tree : FileTree) (location : Location) : Option Entry :=
  if location = [] then some .directory else tree.entries.lookup location

/-- The tree with something standing at a location. -/
def insert (tree : FileTree) (location : Location) (entry : Entry) : FileTree :=
  { tree with entries := (location, entry) :: tree.entries.filter fun found => found.1 ≠ location }

/-- The tree without a location and everything below it. -/
def erase (tree : FileTree) (location : Location) : FileTree :=
  { tree with entries := tree.entries.filter fun found => !location.isPrefixOf found.1 }

/-- Where a location is found after everything at and below one location has moved to another. -/
def carried (source target location : Location) : Location :=
  if source.isPrefixOf location then target ++ location.drop source.length else location

/-- The tree with everything at and below one location moved to another, the working directory
included. -/
def move (tree : FileTree) (source target : Location) : FileTree :=
  { tree with
    entries := (tree.erase target).entries.map fun found => (carried source target found.1, found.2)
    home := carried source target tree.home }

/-- The contents of a regular file. -/
def read (tree : FileTree) (number : Nat) : Bytes := tree.contents.getD number []

/-- The tree with new contents of a regular file. -/
def store (tree : FileTree) (number : Nat) (bytes : Bytes) : FileTree :=
  { tree with contents := tree.contents.setIfInBounds number bytes }

/-- A fault of the operating system. -/
def fail {α : Type} (fault : SystemFault) : Except IoFault α := .error (.system fault)

/-- Follows segments that must all name directories. -/
def walk (tree : FileTree) : Location → List Path.Segment → Except IoFault Location
  | location, [] => .ok location
  | location, segment :: rest =>
      if Path.isIdle segment then walk tree location rest
      else if segment = Path.above then walk tree location.dropLast rest
      else if nameLimit < Utf8.size segment then fail .nameTooLong
      else
        match tree.find? (location ++ [segment]) with
        | some .directory => walk tree (location ++ [segment]) rest
        | some (.leaf _) => fail .notDirectory
        | none => fail .noEntry

/-- Where the segments of a path lead. -/
def locateSegments (tree : FileTree) (start : Location) (segments : List Path.Segment) :
    Except IoFault Place :=
  let named := segments.filter fun segment => segment ≠ []
  match named.getLast? with
  | none => .ok (.directory start)
  | some last =>
      if last = Path.here ∨ last = Path.above then (tree.walk start named).map Place.directory
      else
        (tree.walk start named.dropLast).bind fun directory =>
          if nameLimit < Utf8.size last then fail .nameTooLong
          else .ok (.named (directory ++ [last]) (segments.getLast? = some []))

/-- Where a path leads. -/
def locate (tree : FileTree) (path : List Char) : Except IoFault Place :=
  if '\x00' ∈ path then .error .nulInPath
  else if path = [] then fail .noEntry
  else if pathLimit < Utf8.size path then fail .nameTooLong
  else
    let start := if path.head? = some '/' then [] else tree.home
    tree.locateSegments start (Path.split path)

/-- Whether a path leads to something that is there. -/
def present (tree : FileTree) (path : List Char) : Bool :=
  match tree.locate path with
  | .error _ => false
  | .ok (.directory _) => true
  | .ok (.named location slash) =>
      match tree.find? location with
      | none => false
      | some .directory => true
      | some (.leaf _) => !slash

/-- Whether a path leads to a directory that is there. -/
def isDirectory (tree : FileTree) (path : List Char) : Bool :=
  match tree.locate path with
  | .error _ => false
  | .ok (.directory _) => true
  | .ok (.named location _) => tree.find? location = some .directory

/-- Makes a directory. -/
def makeDirectory (tree : FileTree) (path : List Char) : Except IoFault FileTree :=
  match tree.locate path with
  | .error fault => .error fault
  | .ok (.directory _) => fail .taken
  | .ok (.named location _) =>
      if (tree.find? location).isSome then fail .taken
      else .ok (tree.insert location .directory)

/-- The tree after an attempt to change it, and the fault that ended the attempt, if any. -/
abbrev Attempt := FileTree × Option IoFault

/-- A change that leaves the tree alone when it fails. -/
def attempt (tree : FileTree) (change : FileTree → Except IoFault FileTree) : Attempt :=
  match change tree with
  | .ok changed => (changed, none)
  | .error fault => (tree, some fault)

/-- A second change after a first one that did not fail. -/
def Attempt.andThen (first : Attempt) (second : FileTree → Attempt) : Attempt :=
  match first.2 with
  | none => second first.1
  | some _ => first

/-- Makes a directory; one that is there is left alone. -/
def ensureDirectory (path : List Char) (tree : FileTree) : Attempt :=
  match tree.makeDirectory path with
  | .ok made => (made, none)
  | .error fault => (tree, if tree.isDirectory path then none else some fault)

/-- Makes a directory and those above it, going up at most the given number of times. -/
def makeDirectoriesFrom : Nat → FileTree → List Char → Attempt
  | 0, tree, _ => (tree, none)
  | limit + 1, tree, path =>
      if path = [] then (tree, none)
      else
        let first := ensureDirectory path tree
        if first.2 = some (.system .noEntry) then
          (makeDirectoriesFrom limit tree (Path.parent path)).andThen (ensureDirectory path)
        else first

/-- Makes a directory and those above it; one that is there is left alone. Directories made before a
fault stay. -/
def makeDirectories (tree : FileTree) (path : List Char) : Attempt :=
  makeDirectoriesFrom (path.length + 1) tree path

/-- Opens what a path leads to for writing, making a regular file if nothing is there. -/
def openTarget (tree : FileTree) (path : List Char) : Except IoFault (Target × FileTree) :=
  match tree.locate path with
  | .error fault => .error fault
  | .ok (.directory _) => fail .isDirectory
  | .ok (.named location slash) =>
      if slash then fail .isDirectory
      else
        match tree.find? location with
        | some .directory => fail .isDirectory
        | some (.leaf target) => .ok (target, tree)
        | none =>
            let number := tree.contents.size
            .ok (.file number,
              { tree.insert location (.leaf (.file number)) with
                contents := tree.contents.push [] })

/-- Opens a file for writing at its end. -/
def openAppend (tree : FileTree) (path : List Char) : Except IoFault (Handle × FileTree) :=
  (tree.openTarget path).map fun opened => (⟨opened.1, none⟩, opened.2)

/-- Opens a file and empties it. -/
def create (tree : FileTree) (path : List Char) : Except IoFault (Handle × FileTree) :=
  (tree.openTarget path).map fun opened =>
    (⟨opened.1, some 0⟩,
      match opened.1 with
      | .file number => opened.2.store number []
      | .device _ => opened.2)

/-- Number of bytes in an open file. -/
def size (tree : FileTree) (handle : Handle) : Nat :=
  match handle.target with
  | .file number => (tree.read number).length
  | .device _ => 0

/-- Bytes with others written over them at a position; a gap is filled with zeros. -/
def patch (old : Bytes) (position : Nat) (bytes : Bytes) : Bytes :=
  old.take position ++ List.replicate (position - old.length) 0 ++ bytes ++
    old.drop (position + bytes.length)

/-- Writes bytes to an open file. -/
def write (tree : FileTree) (handle : Handle) (bytes : Bytes) :
    Except IoFault (Handle × FileTree) :=
  match handle.target with
  | .device .null => .ok (handle, tree)
  | .device .full => if bytes = [] then .ok (handle, tree) else fail .noSpace
  | .file number =>
      match handle.position with
      | none => .ok (handle, tree.store number (tree.read number ++ bytes))
      | some position =>
          .ok (⟨handle.target, some (position + bytes.length)⟩,
            tree.store number (patch (tree.read number) position bytes))

/-- Removes a file. -/
def removeFile (tree : FileTree) (path : List Char) : Except IoFault FileTree :=
  match tree.locate path with
  | .error fault => .error fault
  | .ok (.directory _) => fail .isDirectory
  | .ok (.named location slash) =>
      match tree.find? location with
      | none => fail .noEntry
      | some .directory => fail .isDirectory
      | some (.leaf _) => if slash then fail .notDirectory else .ok (tree.erase location)

/-- The tree without anything below a location. -/
def clear (tree : FileTree) (location : Location) : FileTree :=
  { tree with
    entries := tree.entries.filter fun found =>
      !location.isPrefixOf found.1 || found.1 == location }

/-- Removes a file or a whole directory. A directory that the path does not call by its name is emptied
but cannot be removed itself. -/
def removeAll (tree : FileTree) (path : List Char) : Attempt :=
  match tree.locate path with
  | .error fault => (tree, some fault)
  | .ok (.directory location) => (tree.clear location, some (.system .invalid))
  | .ok (.named location slash) =>
      match tree.find? location with
      | none => (tree, some (.system .noEntry))
      | some .directory => (tree.erase location, none)
      | some (.leaf _) =>
          if slash then (tree, some (.system .notDirectory)) else (tree.erase location, none)

/-- Renames what stands at one path to another. A file may take the place of a file; a directory needs a
vacant place outside itself. -/
def rename (tree : FileTree) (source target : List Char) : Except IoFault FileTree :=
  match tree.locate source, tree.locate target with
  | .error fault, _ => .error fault
  | _, .error fault => .error fault
  | .ok (.named source _), .ok (.named target _) =>
      match tree.find? source, tree.find? target with
      | none, _ => fail .noEntry
      | some (.leaf _), some .directory => fail .isDirectory
      | some (.leaf _), _ => .ok (if source = target then tree else tree.move source target)
      | some .directory, some (.leaf _) => fail .notDirectory
      | some .directory, some .directory =>
          if source = target then .ok tree else fail .notEmpty
      | some .directory, none =>
          if source.isPrefixOf target then fail .invalid else .ok (tree.move source target)
  | _, _ => fail .busy

/-- Puts bytes into a file, making it or emptying it first. -/
def replaceFile (tree : FileTree) (path : List Char) (bytes : Bytes) : Except IoFault FileTree :=
  (tree.create path).bind fun opened =>
    (opened.2.write opened.1 bytes).map Prod.snd

/-- What stands below the working directory: relative paths, with contents for regular files. -/
def listing (tree : FileTree) : List (List Char × Option Bytes) :=
  tree.entries.filterMap fun found =>
    if tree.home.isPrefixOf found.1 ∧ found.1 ≠ tree.home then
      let path := Path.join (found.1.drop tree.home.length)
      match found.2 with
      | .directory => some (path, none)
      | .leaf (.file number) => some (path, some (tree.read number))
      | .leaf (.device _) => some (path, some [])
    else none

end FileTree

end LogRelay
