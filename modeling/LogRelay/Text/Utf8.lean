/-!
# Bytes of a text

Texts are stored as bytes, and bytes are read back as far as they spell characters. The part that
fits into a given number of bytes is cut between characters, never inside one.
-/

namespace LogRelay

/-- A run of bytes. -/
abbrev Bytes := List UInt8

namespace Utf8

/-- The bytes of a run of characters. -/
def encode (chars : List Char) : Bytes := chars.flatMap String.utf8EncodeChar

/-- The bytes of a text. -/
def bytes (text : String) : Bytes := encode text.toList

/-- Number of bytes of a run of characters. -/
def size : List Char → Nat
  | [] => 0
  | char :: rest => char.utf8Size + size rest

/-- The longest part at the front that takes at most `room` bytes. -/
def fit : Nat → List Char → List Char
  | _, [] => []
  | room, char :: rest =>
      if char.utf8Size ≤ room then char :: fit (room - char.utf8Size) rest else []

/-- The character spelled by the first bytes, if they spell one. -/
def firstChar? (bytes : Bytes) : Option Char :=
  ByteArray.utf8DecodeChar? (bytes.take 4).toByteArray 0

/-- Reads characters off the front, at most as many as the first argument says. -/
def decodeUpTo : Nat → Bytes → List Char
  | 0, _ => []
  | limit + 1, bytes =>
      match firstChar? bytes with
      | none => []
      | some char => char :: decodeUpTo limit (bytes.drop char.utf8Size)

/-- The characters spelled by the longest well-formed part at the front. -/
def decode (bytes : Bytes) : List Char := decodeUpTo bytes.length bytes

/-- The text spelled by the longest well-formed part at the front. -/
def text (bytes : Bytes) : String := String.ofList (decode bytes)

/-- The text spelled by all the bytes, if they are well formed to the end. -/
def text? (bytes : Bytes) : Option String :=
  let chars := decode bytes
  if size chars = bytes.length then some (String.ofList chars) else none

@[simp]
theorem encode_nil : encode [] = [] := rfl

@[simp]
theorem encode_cons (char : Char) (rest : List Char) :
    encode (char :: rest) = String.utf8EncodeChar char ++ encode rest := rfl

@[simp]
theorem encode_append (front back : List Char) :
    encode (front ++ back) = encode front ++ encode back := by
  simp [encode]

theorem length_encode (chars : List Char) : (encode chars).length = size chars := by
  induction chars with
  | nil => rfl
  | cons char rest ih => simp [size, ih]

@[simp]
theorem size_append (front back : List Char) : size (front ++ back) = size front + size back := by
  induction front with
  | nil => simp [size]
  | cons char rest ih => simp [size, ih, Nat.add_assoc]

theorem size_fit_le (room : Nat) (chars : List Char) : size (fit room chars) ≤ room := by
  induction chars generalizing room with
  | nil => simp [fit, size]
  | cons char rest ih =>
    simp only [fit]
    split
    · next hfits =>
      have hrest := ih (room - char.utf8Size)
      simp only [size]
      omega
    · simp [size]

theorem fit_isPrefix (room : Nat) (chars : List Char) : fit room chars <+: chars := by
  induction chars generalizing room with
  | nil => simp [fit]
  | cons char rest ih =>
    simp only [fit]
    split
    · exact List.cons_prefix_cons.2 ⟨rfl, ih _⟩
    · exact List.nil_prefix

theorem fit_eq_self {room : Nat} {chars : List Char} (hroom : size chars ≤ room) :
    fit room chars = chars := by
  induction chars generalizing room with
  | nil => rfl
  | cons char rest ih =>
    simp only [size] at hroom
    rw [fit, if_pos (by omega), ih (by omega)]

end Utf8

end LogRelay
