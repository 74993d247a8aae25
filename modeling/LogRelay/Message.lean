import LogRelay.Level
import LogRelay.Payload
import LogRelay.Text.Quoted
import LogRelay.Time.Duration

/-!
# Messages of fixed size

A message owns a buffer of fixed size, of which the last byte in use is a terminating zero. Setting a
message writes the payload over the front of the buffer; the stored length changes only when the
payload has finished writing.
-/

namespace LogRelay

/-- A captured message with a text buffer of `size` bytes. -/
structure Message (size : Nat) where
  /-- How urgent the message is. -/
  level : Level
  /-- When it was captured. -/
  timestamp : Duration
  /-- Number of text bytes, without the terminator. -/
  length : Nat
  /-- The whole buffer. -/
  buffer : Bytes
  /-- The terminator fits behind the text. -/
  length_lt : length < size
  /-- The buffer has its fixed size. -/
  buffer_length : buffer.length = size
deriving DecidableEq, Repr

namespace Message

variable {size : Nat}

/-- Complaint about a buffer without room for the terminator. -/
def noRoomComplaint : String := "Message buffer must hold at least the terminator"

/-- An empty message. -/
def blank (hsize : 0 < size) : Message size :=
  ⟨.info, .zero, 0, List.replicate size 0, hsize, List.length_replicate⟩

/-- An empty message; there is none without room for the terminator. -/
def blank? (size : Nat) : Option (Message size) :=
  if hsize : 0 < size then some (blank hsize) else none

theorem size_pos (message : Message size) : 0 < size :=
  Nat.lt_of_le_of_lt (Nat.zero_le _) message.length_lt

/-- Number of text bytes that a message can hold. -/
def capacity (_message : Message size) : Nat := size - 1

/-- The bytes of the text. -/
def content (message : Message size) : Bytes := message.buffer.take message.length

/-- The text, as far as its bytes are well formed. -/
def text (message : Message size) : String := Utf8.text message.content

/-- The bytes before the first zero up to the terminator, none if there is no zero. -/
def terminated (message : Message size) : Bytes :=
  let bytes := message.buffer.take (message.length + 1)
  if 0 ∈ bytes then bytes.takeWhile (· ≠ 0) else []

/-- Bytes written over the front of a buffer. -/
def overwrite (bytes buffer : Bytes) : Bytes := bytes ++ buffer.drop bytes.length

theorem length_overwrite {bytes buffer : Bytes} (hfits : bytes.length ≤ buffer.length) :
    (overwrite bytes buffer).length = buffer.length := by
  simp only [overwrite, List.length_append, List.length_drop]
  omega

/-- A message set to a level, a time and what a payload writes, and whether the payload broke down
while writing. In that case level, time and the bytes written so far are new and the length is not. -/
def set (message : Message size) (level : Level) (timestamp : Duration) (payload : Payload) :
    Message size × Bool :=
  let written := Payload.fill (size - 1) payload
  have hwritten : written.bytes.length ≤ size - 1 := Payload.length_fill_le _ _
  have hsize := message.length_lt
  have hbuffer := message.buffer_length
  if written.ending = .brokeDown then
    (⟨level, timestamp, message.length, overwrite written.bytes message.buffer, hsize,
      (length_overwrite (by omega)).trans hbuffer⟩, true)
  else
    (⟨level, timestamp, written.bytes.length, overwrite (written.bytes ++ [0]) message.buffer,
      by omega,
      (length_overwrite (by simp only [List.length_append, List.length_singleton]; omega)).trans
        hbuffer⟩, false)

/-- A message put back to the state of an empty one; only the first byte of the buffer changes. -/
def reset (message : Message size) : Message size :=
  have hsize := message.length_lt
  have hbuffer := message.buffer_length
  ⟨.info, .zero, 0, overwrite [0] message.buffer, by omega,
    (length_overwrite (by simp only [List.length_singleton]; omega)).trans hbuffer⟩

/-- Two messages are the same to a reader when level, time and text bytes agree. -/
def same (left right : Message size) : Bool :=
  left.level = right.level && left.timestamp = right.timestamp && left.content = right.content

/-- A message as a line of text. -/
def display (message : Message size) : String :=
  message.timestamp.clockText ++ " " ++ message.level.tag ++ " [RT] " ++ message.text

/-- Debugging text of a message. -/
def debugText (message : Message size) : String :=
  "RtLogMessage \x7b level: " ++ message.level.label ++ ", timestamp: " ++
    message.timestamp.debugText ++ ", length: " ++ toString message.length ++ ", message: " ++
    Quoted.text message.text ++ " \x7d"

end Message

end LogRelay
