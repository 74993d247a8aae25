import LogRelay.Proofs.Message.Orderly

/-!
# What readers get from a message

Nobody reads a message beyond its terminator. So of two messages that are set alike, or both reset, readers
get the same, whatever was in the messages before and is left behind the terminator.
-/

namespace LogRelay.Message

variable {size : Nat}

/-- All that readers get from a message. -/
structure Reading where
  /-- How urgent it is. -/
  level : Level
  /-- When it was captured. -/
  timestamp : Duration
  /-- Number of text bytes. -/
  length : Nat
  /-- The bytes of the text. -/
  content : Bytes
  /-- The text. -/
  text : String
  /-- The bytes up to the first zero. -/
  terminated : Bytes
  /-- The line of text. -/
  display : String
  /-- The debugging text. -/
  debugText : String
deriving DecidableEq, Repr

/-- What readers get from a message. -/
def reading (message : Message size) : Reading :=
  ⟨message.level, message.timestamp, message.length, message.content, message.text,
    message.terminated, message.display, message.debugText⟩

variable {one other : Message size}

/-- Readers look no further than the terminator. -/
theorem reading_congr (hlevel : one.level = other.level) (htimestamp : one.timestamp = other.timestamp)
    (hlength : one.length = other.length)
    (hfront : one.buffer.take (one.length + 1) = other.buffer.take (other.length + 1)) :
    one.reading = other.reading := by
  have htake : ∀ message : Message size,
      message.content = (message.buffer.take (message.length + 1)).take message.length := by
    intro message
    rw [List.take_take, Nat.min_eq_left (Nat.le_succ _), content]
  have hcontent : one.content = other.content := by rw [htake, htake, hfront, hlength]
  have htext : one.text = other.text := by rw [text, text, hcontent]
  have hterminated : one.terminated = other.terminated := by rw [terminated, terminated, hfront]
  have hdisplay : one.display = other.display := by rw [display, display, hlevel, htimestamp, htext]
  have hdebug : one.debugText = other.debugText := by
    unfold debugText
    rw [hlevel, htimestamp, hlength, htext]
  rw [reading, reading, hlevel, htimestamp, hlength, hcontent, htext, hterminated, hdisplay, hdebug]

theorem same_of_reading (hreading : one.reading = other.reading) : one.same other = true := by
  simp only [reading, Reading.mk.injEq] at hreading
  obtain ⟨hlevel, htimestamp, -, hcontent, -⟩ := hreading
  simp [same, hlevel, htimestamp, hcontent]

theorem take_buffer_set {message : Message size} {level : Level} {timestamp : Duration}
    {payload : Payload} (hdone : (message.set level timestamp payload).2 = false) :
    let next := (message.set level timestamp payload).1
    next.buffer.take (next.length + 1) = (Payload.fill (size - 1) payload).bytes ++ [0] := by
  obtain ⟨hlength, hbuffer⟩ := set_of_done hdone
  intro next
  have hlast : next.length + 1 = ((Payload.fill (size - 1) payload).bytes ++ [0]).length := by
    rw [hlength, List.length_append, List.length_singleton]
  rw [hlast, hbuffer, overwrite, List.take_left]

theorem reading_set {level : Level} {timestamp : Duration} {payload : Payload}
    (hone : (one.set level timestamp payload).2 = false)
    (hother : (other.set level timestamp payload).2 = false) :
    (one.set level timestamp payload).1.reading = (other.set level timestamp payload).1.reading := by
  apply reading_congr
  · rw [level_set, level_set]
  · rw [timestamp_set, timestamp_set]
  · rw [(set_of_done hone).1, (set_of_done hother).1]
  · exact (take_buffer_set hone).trans (take_buffer_set hother).symm

theorem reading_reset (message : Message size) :
    message.reset.reading = (blank message.size_pos).reading := by
  have hfront : (blank message.size_pos).buffer.take 1 = [0] := by
    rw [blank, List.take_replicate, Nat.min_eq_left message.size_pos]
    rfl
  exact reading_congr rfl rfl rfl hfront.symm

/-- Two messages set alike to a payload that finishes are the same and read alike, whatever they held
before: at level and time they were set to, in order, and terminated at the first zero of their text. Two
messages that are reset are the same as an empty one and read like it. -/
theorem set_leaves_no_trace (one other : Message size) {level : Level} {timestamp : Duration}
    {payload : Payload} (hdone : (one.set level timestamp payload).2 = false) :
    let first := (one.set level timestamp payload).1
    let second := (other.set level timestamp payload).1
    ((other.set level timestamp payload).2 = false ∧ first.same second = true ∧
        first.reading = second.reading) ∧
      (first.level = level ∧ first.timestamp = timestamp ∧ first.Orderly ∧
        first.terminated = first.content.takeWhile (· ≠ 0)) ∧
      one.reset.same (blank one.size_pos) = true ∧
        one.reset.reading = (blank one.size_pos).reading ∧ one.reset.Orderly ∧
        one.reset.same other.reset = true ∧ one.reset.reading = other.reset.reading := by
  have hother : (other.set level timestamp payload).2 = false := by
    rw [Bool.eq_false_iff] at hdone ⊢
    exact fun hbroke => hdone (set_breaks_iff.2 (set_breaks_iff.1 hbroke))
  have hreading := reading_set hdone hother
  have horderly := orderly_set hdone
  have hterminated := horderly.terminated_eq
  rw [horderly.bytes_text] at hterminated
  have hreset : one.reset.reading = other.reset.reading := by rw [reading_reset, reading_reset]
  exact ⟨⟨hother, same_of_reading hreading, hreading⟩,
    ⟨level_set, timestamp_set, horderly, hterminated⟩, same_of_reading (reading_reset one),
    reading_reset one, orderly_reset one, same_of_reading hreset, hreset⟩

/-- A message with a torn text and an empty one, set to a text with a zero that is cut before a character,
differ behind their terminators only. -/
theorem torn_and_empty_read_alike :
    let empty : Message 7 := blank (by decide)
    let long := (empty.set .error .zero (.ofText "abcdef")).1
    let torn := (long.set .debug .zero [⟨[.text "é", .breakdown], false⟩]).1
    let payload : Payload := [⟨[.text "a\x00é", .text "漢"], false⟩]
    (torn.set .warning .zero payload).2 = false ∧
      (torn.set .warning .zero payload).1 ≠ (empty.set .warning .zero payload).1 ∧
      (torn.set .warning .zero payload).1.same (empty.set .warning .zero payload).1 = true ∧
      (torn.set .warning .zero payload).1.reading = (empty.set .warning .zero payload).1.reading ∧
      (torn.set .warning .zero payload).1.terminated = [97] := by
  intro empty long torn payload
  have hdone : (torn.set .warning .zero payload).2 = false := by decide +kernel
  obtain ⟨⟨-, hsame, hreading⟩, -⟩ := set_leaves_no_trace torn empty hdone
  exact ⟨hdone, by decide +kernel, hsame, hreading, by decide +kernel⟩

end LogRelay.Message
