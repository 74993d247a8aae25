import LogRelay.Payload

/-!
# Writing over a buffer

A window is a buffer that is filled from the front. Texts are copied into it one after the other; one that
does not fit is cut at the last place at or before the end of the room where a character ends. Every index
is checked: an operation that would reach outside a buffer, or below zero, has no result.
-/

namespace LogRelay

namespace Utf8

/-- Whether a byte belongs to a character begun before it. -/
def isContinuation (byte : UInt8) : Bool := 128 ≤ byte && byte < 192

/-- Whether a character ends, or the text begins, right before an index. -/
def isBoundary (bytes : Bytes) (index : Nat) : Bool :=
  index = 0 || index = bytes.length ||
    match bytes[index]? with
    | some byte => !isContinuation byte
    | none => false

/-- The last boundary of a text at or before an index, looked for going backwards. -/
def lastBoundary? (bytes : Bytes) (index : Nat) : Option Nat :=
  if isBoundary bytes index then some index
  else
    match index with
    | 0 => none
    | before + 1 => lastBoundary? bytes before

end Utf8

/-- A buffer that is filled from the front. -/
structure Window where
  /-- The whole buffer. -/
  buffer : Bytes
  /-- Number of bytes written to it. -/
  filled : Nat
deriving DecidableEq, Repr

namespace Window

/-- A window on a buffer to which nothing has been written. -/
def onto (buffer : Bytes) : Window := ⟨buffer, 0⟩

/-- A difference that does not go below zero. -/
def difference? (whole part : Nat) : Option Nat := if part ≤ whole then some (whole - part) else none

/-- The bytes up to an index. -/
def upTo? (bytes : Bytes) (stop : Nat) : Option Bytes :=
  if stop ≤ bytes.length then some (bytes.take stop) else none

/-- Bytes with others copied over those from one index up to another, of which there must be as many. -/
def copyOver? (bytes : Bytes) (start stop : Nat) (source : Bytes) : Option Bytes :=
  if start ≤ stop ∧ stop ≤ bytes.length ∧ source.length = stop - start then
    some (bytes.take start ++ source ++ bytes.drop stop)
  else none

/-- Copies a number of bytes behind those written. -/
def copy? (window : Window) (source : Bytes) (count : Nat) : Option Window :=
  (copyOver? window.buffer window.filled (window.filled + count) source).map fun buffer =>
    ⟨buffer, window.filled + count⟩

/-- Writes the bytes of a text as far as its characters fit, and says whether all of them did. -/
def put? (window : Window) (text : Bytes) : Option (Window × Bool) :=
  (difference? window.buffer.length window.filled).bind fun room =>
    if text.length ≤ room then (window.copy? text text.length).map fun next => (next, true)
    else
      (Utf8.lastBoundary? text room).bind fun cut =>
        (upTo? text cut).bind fun part => (window.copy? part cut).map fun next => (next, false)

/-- Writes pieces. -/
def putPieces? (tolerant : Bool) : Window → List Piece → Option (Window × Ending)
  | window, [] => some (window, .completed)
  | window, .text content :: rest =>
      (window.put? (Utf8.bytes content)).bind fun written =>
        if written.2 || tolerant then putPieces? tolerant written.1 rest
        else some (written.1, .failed)
  | window, .failure :: rest =>
      if tolerant then putPieces? tolerant window rest else some (window, .failed)
  | window, .breakdown :: _ => some (window, .brokeDown)

/-- Writes a payload. -/
def fill? : Window → Payload → Option (Window × Ending)
  | window, [] => some (window, .completed)
  | window, segment :: rest =>
      (window.putPieces? segment.tolerant segment.pieces).bind fun written =>
        if written.2 = .completed then fill? written.1 rest else some written

end Window

end LogRelay
