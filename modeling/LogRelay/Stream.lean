import LogRelay.Files

/-!
# Streams

A stream writes to an open file and holds bytes back to write them together. What does not fit beside
the bytes held back makes them be written first; what is too big to be held at all goes straight to the
file. Bytes that the file refuses stay held.
-/

namespace LogRelay

/-- An open file with bytes held back. -/
structure Stream where
  /-- The open file. -/
  handle : Handle
  /-- Bytes not yet written to it, in order. -/
  held : Bytes
deriving DecidableEq, Repr

/-- A changed state beside a changed tree, and the fault if there was one. -/
structure Applied (σ : Type) where
  /-- The state. -/
  state : σ
  /-- The tree. -/
  files : FileTree
  /-- Why the change did not succeed. -/
  fault : Option IoFault

namespace Stream

/-- Number of bytes that can be held back. -/
def capacity : Nat := 8192

/-- A stream with nothing held back. -/
def ofHandle (handle : Handle) : Stream := ⟨handle, []⟩

/-- Writes the bytes held back to the file. -/
def flush (stream : Stream) (files : FileTree) : Applied Stream :=
  if stream.held = [] then ⟨stream, files, none⟩
  else
    match files.write stream.handle stream.held with
    | .ok (handle, written) => ⟨⟨handle, []⟩, written, none⟩
    | .error fault => ⟨stream, files, some fault⟩

/-- Takes bytes when the bytes held back leave room for them or can be written first. -/
def accept (stream : Stream) (files : FileTree) (bytes : Bytes) : Applied Stream :=
  if capacity ≤ bytes.length then
    match files.write stream.handle bytes with
    | .ok (handle, written) => ⟨{ stream with handle := handle }, written, none⟩
    | .error fault => ⟨stream, files, some fault⟩
  else ⟨{ stream with held := stream.held ++ bytes }, files, none⟩

/-- Takes bytes. -/
def append (stream : Stream) (files : FileTree) (bytes : Bytes) : Applied Stream :=
  if capacity < stream.held.length + bytes.length then
    let flushed := stream.flush files
    match flushed.fault with
    | some _ => flushed
    | none => flushed.state.accept flushed.files bytes
  else stream.accept files bytes

end Stream

end LogRelay
