import LogRelay.Text.Utf8

/-!
# Payloads

A caller hands over a message as something that writes itself, piece by piece. A piece is a text, or
the place where writing fails or breaks off. Writing into a bounded room cuts the first text that
does not fit and fails there; a strict segment stops at its first failure, a tolerant one goes on
with its next piece and succeeds. Writing into unbounded room yields a text.
-/

namespace LogRelay

/-- One step of a message that writes itself. -/
inductive Piece where
  | text (content : String)
  | failure
  | breakdown
deriving DecidableEq, Repr

/-- Pieces written one after the other. -/
structure Segment where
  /-- The pieces in order. -/
  pieces : List Piece
  /-- Whether writing goes on after a piece that failed. -/
  tolerant : Bool
deriving DecidableEq, Repr

/-- Segments written one after the other, up to the first that fails. -/
abbrev Payload := List Segment

/-- How writing ended. -/
inductive Ending where
  | completed
  | failed
  | brokeDown
deriving DecidableEq, Repr

/-- What was written, and how writing ended. -/
structure Written where
  /-- The bytes written. -/
  bytes : Bytes
  /-- How writing ended. -/
  ending : Ending
deriving DecidableEq, Repr

namespace Piece

/-- The characters of a text piece that fit into the room, and whether all of them do. -/
def cut (room : Nat) (content : String) : List Char × Bool :=
  let chars := content.toList
  if Utf8.size chars ≤ room then (chars, true) else (Utf8.fit room chars, false)

end Piece

namespace Segment

/-- A segment of one text. -/
def ofText (content : String) : Segment := ⟨[.text content], false⟩

/-- Writes pieces into a room of some bytes. -/
def fillPieces (tolerant : Bool) : Nat → List Piece → Written
  | _, [] => ⟨[], .completed⟩
  | room, .text content :: rest =>
      let part := Piece.cut room content
      let bytes := Utf8.encode part.1
      if part.2 || tolerant then
        let later := fillPieces tolerant (room - bytes.length) rest
        ⟨bytes ++ later.bytes, later.ending⟩
      else ⟨bytes, .failed⟩
  | room, .failure :: rest => if tolerant then fillPieces tolerant room rest else ⟨[], .failed⟩
  | _, .breakdown :: _ => ⟨[], .brokeDown⟩

/-- Writes a segment into a room of some bytes. -/
def fill (room : Nat) (segment : Segment) : Written :=
  fillPieces segment.tolerant room segment.pieces

/-- Writes pieces into unbounded room. -/
def spellPieces (tolerant : Bool) : List Piece → String × Ending
  | [] => ("", .completed)
  | .text content :: rest =>
      let later := spellPieces tolerant rest
      (content ++ later.1, later.2)
  | .failure :: rest => if tolerant then spellPieces tolerant rest else ("", .failed)
  | .breakdown :: _ => ("", .brokeDown)

/-- Writes a segment into unbounded room. -/
def spell (segment : Segment) : String × Ending := spellPieces segment.tolerant segment.pieces

end Segment

namespace Payload

/-- A payload of one text. -/
def ofText (content : String) : Payload := [Segment.ofText content]

/-- Writes a payload into a room of some bytes. -/
def fill (room : Nat) : Payload → Written
  | [] => ⟨[], .completed⟩
  | segment :: rest =>
      let first := segment.fill room
      if first.ending = .completed then
        let later := fill (room - first.bytes.length) rest
        ⟨first.bytes ++ later.bytes, later.ending⟩
      else first

/-- Writes a payload into unbounded room. -/
def spell : Payload → String × Ending
  | [] => ("", .completed)
  | segment :: rest =>
      let first := segment.spell
      if first.2 = .completed then
        let later := spell rest
        (first.1 ++ later.1, later.2)
      else first

/-- The whole text of a payload that writes itself without failing. -/
def text? (payload : Payload) : Option String :=
  let spelled := spell payload
  if spelled.2 = .completed then some spelled.1 else none

end Payload

theorem Piece.size_cut_le (room : Nat) (content : String) :
    Utf8.size (Piece.cut room content).1 ≤ room := by
  simp only [Piece.cut]
  split
  · assumption
  · exact Utf8.size_fit_le _ _

theorem Segment.length_fillPieces_le (tolerant : Bool) (room : Nat) (pieces : List Piece) :
    (Segment.fillPieces tolerant room pieces).bytes.length ≤ room := by
  induction pieces generalizing room with
  | nil => simp [Segment.fillPieces]
  | cons piece rest ih =>
    cases piece with
    | text content =>
      have hcut := Piece.size_cut_le room content
      simp only [Segment.fillPieces]
      split
      · have hrest := ih (room - (Utf8.encode (Piece.cut room content).1).length)
        rw [Utf8.length_encode] at hrest
        simp only [List.length_append, Utf8.length_encode]
        omega
      · simpa only [Utf8.length_encode] using hcut
    | failure =>
      simp only [Segment.fillPieces]
      split
      · exact ih room
      · simp
    | breakdown => simp [Segment.fillPieces]

theorem Payload.length_fill_le (room : Nat) (payload : Payload) :
    (Payload.fill room payload).bytes.length ≤ room := by
  induction payload generalizing room with
  | nil => simp [Payload.fill]
  | cons segment rest ih =>
    have hfirst := Segment.length_fillPieces_le segment.tolerant room segment.pieces
    simp only [Payload.fill]
    split
    · have hrest := ih (room - (segment.fill room).bytes.length)
      simp only [List.length_append]
      simp only [Segment.fill] at hrest ⊢
      omega
    · simpa only [Segment.fill] using hfirst

end LogRelay
