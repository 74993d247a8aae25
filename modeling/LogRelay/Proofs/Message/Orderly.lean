import LogRelay.Proofs.Message.Fitting
import LogRelay.Proofs.Text.Boundaries

/-!
# The layout of a message

A message is in order when its text is well formed to the end and the terminator stands right behind it.
Setting a message to a payload that finishes puts any message in order, whatever its buffer holds. A payload
that breaks down writes over the text and leaves the length: a message in order stays so exactly if what was
written ends within the text where a character ends, or has a zero where the terminator stands.
-/

namespace LogRelay

/-! ## Well-formed bytes -/

namespace Utf8

/-- What stands behind a text in a text is a text. -/
theorem encode_eq_append {chars front : List Char} {rest : Bytes}
    (hsame : encode chars = encode front ++ rest) :
    ∃ back, chars = front ++ back ∧ rest = encode back := by
  induction front generalizing chars with
  | nil => exact ⟨chars, rfl, hsame.symm⟩
  | cons char front induction =>
      rw [encode_cons, List.append_assoc] at hsame
      cases chars with
      | nil => exact absurd (congrArg List.length hsame) (by simp; have := char.utf8Size_pos; omega)
      | cons other chars =>
          rw [encode_cons] at hsame
          have hfirst := congrArg firstChar? hsame
          rw [firstChar?_encode_append, firstChar?_encode_append] at hfirst
          obtain rfl := Option.some.inj hfirst
          obtain ⟨back, rfl, hrest⟩ := induction (List.append_cancel_left hsame)
          exact ⟨back, rfl, hrest⟩

theorem isBoundary_append_encode (front : Bytes) (back : List Char) :
    isBoundary (front ++ encode back) front.length = true := by
  cases back with
  | nil => simp [isBoundary]
  | cons char back =>
      obtain ⟨first, others, hchar, hfirst, -⟩ := encodeChar_eq_cons char
      simp [isBoundary, hchar, hfirst]

theorem isBoundary_of_zero {bytes : Bytes} {index : Nat} (hzero : bytes[index]? = some 0) :
    isBoundary bytes index = true := by
  have hbegins : isContinuation 0 = false := by decide
  simp [isBoundary, hzero, hbegins]

end Utf8

theorem Segment.exists_fillPieces_eq_encode (tolerant : Bool) (room : Nat) (pieces : List Piece) :
    ∃ chars, (Segment.fillPieces tolerant room pieces).bytes = Utf8.encode chars := by
  induction pieces generalizing room with
  | nil => exact ⟨[], rfl⟩
  | cons piece rest induction =>
      cases piece with
      | breakdown => exact ⟨[], rfl⟩
      | failure =>
          simp only [Segment.fillPieces]
          split
          · exact induction room
          · exact ⟨[], rfl⟩
      | text content =>
          simp only [Segment.fillPieces]
          split
          · obtain ⟨chars, hchars⟩ :=
              induction (room - (Utf8.encode (Piece.cut room content).1).length)
            exact ⟨(Piece.cut room content).1 ++ chars, by rw [Utf8.encode_append, ← hchars]⟩
          · exact ⟨_, rfl⟩

theorem Payload.exists_fill_eq_encode (room : Nat) (payload : Payload) :
    ∃ chars, (Payload.fill room payload).bytes = Utf8.encode chars := by
  induction payload generalizing room with
  | nil => exact ⟨[], rfl⟩
  | cons segment rest induction =>
      obtain ⟨front, hfront⟩ :=
        Segment.exists_fillPieces_eq_encode segment.tolerant room segment.pieces
      have hfirst : (segment.fill room).bytes = Utf8.encode front := hfront
      simp only [Payload.fill]
      split
      · obtain ⟨back, hback⟩ := induction (room - (segment.fill room).bytes.length)
        exact ⟨front ++ back, by rw [Utf8.encode_append, hfirst, ← hback, hfirst]⟩
      · exact ⟨front, hfirst⟩

namespace Message

variable {size : Nat} {message : Message size} {level : Level} {timestamp : Duration} {payload : Payload}

/-! ## What setting changes -/

theorem set_breaks_iff :
    (message.set level timestamp payload).2 = true ↔
      (Payload.fill (size - 1) payload).ending = .brokeDown := by
  rw [set]
  split
  · next hbroke => exact iff_of_true rfl hbroke
  · next hdone => exact iff_of_false Bool.false_ne_true hdone

@[simp]
theorem level_set : (message.set level timestamp payload).1.level = level := by
  rw [set]
  split <;> rfl

@[simp]
theorem timestamp_set : (message.set level timestamp payload).1.timestamp = timestamp := by
  rw [set]
  split <;> rfl

theorem set_of_done (hdone : (message.set level timestamp payload).2 = false) :
    let written := (Payload.fill (size - 1) payload).bytes
    (message.set level timestamp payload).1.length = written.length ∧
      (message.set level timestamp payload).1.buffer = overwrite (written ++ [0]) message.buffer := by
  have hending := mt set_breaks_iff.2 (Bool.not_eq_true _ ▸ hdone)
  rw [set]
  split
  · next hbroke => exact absurd hbroke hending
  · exact ⟨rfl, rfl⟩

theorem set_of_broken (hbroke : (message.set level timestamp payload).2 = true) :
    let written := (Payload.fill (size - 1) payload).bytes
    (message.set level timestamp payload).1.length = message.length ∧
      (message.set level timestamp payload).1.buffer = overwrite written message.buffer := by
  have hending := set_breaks_iff.1 hbroke
  rw [set]
  split
  · exact ⟨rfl, rfl⟩
  · next hdone => exact absurd hending hdone

/-! ## Messages in order -/

/-- A message as its layout has it. -/
structure Orderly (message : Message size) : Prop where
  /-- There is room for the terminator. -/
  length_le : message.length ≤ size - 1
  /-- The terminator stands right behind the text. -/
  terminator : message.buffer[message.length]? = some 0
  /-- The text is well formed to the end. -/
  bytes_text : Utf8.bytes message.text = message.content

theorem length_le (message : Message size) : message.length ≤ size - 1 := by
  have hlt := message.length_lt
  omega

theorem length_content (message : Message size) : message.content.length = message.length := by
  have hlt := message.length_lt
  have hbuffer := message.buffer_length
  rw [content, List.length_take]
  omega

theorem text_of_content {chars : List Char} (hcontent : message.content = Utf8.encode chars) :
    message.text = String.ofList chars := by
  rw [text, hcontent, Utf8.text_encode]

theorem orderly_of_content {chars : List Char} (hcontent : message.content = Utf8.encode chars)
    (hterminator : message.buffer[message.length]? = some 0) : message.Orderly := by
  refine ⟨message.length_le, hterminator, ?_⟩
  rw [text_of_content hcontent, hcontent, Utf8.bytes, String.toList_ofList]

namespace Orderly

theorem length_bytes_text (horderly : message.Orderly) :
    (Utf8.bytes message.text).length = message.length := by
  rw [horderly.bytes_text, message.length_content]

/-- Up to its terminator a message in order has the bytes of its text up to the first zero. -/
theorem terminated_eq (horderly : message.Orderly) :
    message.terminated = (Utf8.bytes message.text).takeWhile (· ≠ 0) := by
  have hfront : message.buffer.take (message.length + 1) = message.content ++ [0] := by
    rw [List.take_add_one, horderly.terminator, content]
    rfl
  have hmem : (0 : UInt8) ∈ message.content ++ [0] :=
    List.mem_append_right _ (List.mem_singleton.2 rfl)
  simp only [terminated, hfront, if_pos hmem, horderly.bytes_text]
  rw [List.takeWhile_append]
  split
  · next hwhole =>
    rw [(List.takeWhile_prefix _).eq_of_length hwhole]
    simp
  · rfl

end Orderly

theorem orderly_blank (hsize : 0 < size) : (blank hsize).Orderly := by
  have hcontent : (blank hsize).content = Utf8.encode [] := rfl
  refine orderly_of_content hcontent ?_
  simp [blank, hsize]

theorem orderly_reset (message : Message size) : message.reset.Orderly := by
  have hcontent : message.reset.content = Utf8.encode [] := rfl
  exact orderly_of_content hcontent rfl

theorem content_set (hdone : (message.set level timestamp payload).2 = false) :
    (message.set level timestamp payload).1.content = (Payload.fill (size - 1) payload).bytes := by
  obtain ⟨hlength, hbuffer⟩ := set_of_done hdone
  rw [content, hlength, hbuffer, overwrite, List.append_assoc, List.take_left]

theorem orderly_set (hdone : (message.set level timestamp payload).2 = false) :
    (message.set level timestamp payload).1.Orderly := by
  obtain ⟨chars, hchars⟩ := Payload.exists_fill_eq_encode (size - 1) payload
  refine orderly_of_content ((content_set hdone).trans hchars) ?_
  obtain ⟨hlength, hbuffer⟩ := set_of_done hdone
  rw [hlength, hbuffer, overwrite, List.append_assoc, List.getElem?_append_right (Nat.le_refl _),
    Nat.sub_self]
  rfl

/-! ## Payloads that break down -/

/-- What a payload writes spares the layout of a message: it ends within the text where a character ends, or
it has a zero where the terminator stands. -/
def Spares (message : Message size) (payload : Payload) : Prop :=
  let written := (Payload.fill (size - 1) payload).bytes
  (written.length ≤ message.length ∧ Utf8.isBoundary message.content written.length = true) ∨
    written[message.length]? = some 0

instance (message : Message size) (payload : Payload) : Decidable (message.Spares payload) :=
  inferInstanceAs (Decidable ((_ ∧ _) ∨ _))

theorem content_set_of_le (hbroke : (message.set level timestamp payload).2 = true)
    (hle : (Payload.fill (size - 1) payload).bytes.length ≤ message.length) :
    let written := (Payload.fill (size - 1) payload).bytes
    (message.set level timestamp payload).1.content =
      written ++ message.content.drop written.length := by
  obtain ⟨hlength, hbuffer⟩ := set_of_broken hbroke
  intro written
  rw [content, hlength, hbuffer, overwrite, List.take_append, List.take_of_length_le hle, content,
    List.drop_take]

theorem content_set_of_lt (hbroke : (message.set level timestamp payload).2 = true)
    (hlt : message.length < (Payload.fill (size - 1) payload).bytes.length) :
    (message.set level timestamp payload).1.content =
      (Payload.fill (size - 1) payload).bytes.take message.length := by
  obtain ⟨hlength, hbuffer⟩ := set_of_broken hbroke
  rw [content, hlength, hbuffer, overwrite, List.take_append_of_le_length (Nat.le_of_lt hlt)]

/-- What was written reaches over the terminator, so a zero has to take its place. -/
theorem orderly_set_iff_of_lt (hbroke : (message.set level timestamp payload).2 = true)
    (hlt : message.length < (Payload.fill (size - 1) payload).bytes.length) :
    (message.set level timestamp payload).1.Orderly ↔
      (Payload.fill (size - 1) payload).bytes[message.length]? = some 0 := by
  obtain ⟨hlength, hbuffer⟩ := set_of_broken hbroke
  obtain ⟨fresh, hfresh⟩ := Payload.exists_fill_eq_encode (size - 1) payload
  have hcontent := content_set_of_lt hbroke hlt
  have hterminator : (message.set level timestamp payload).1.buffer[
      (message.set level timestamp payload).1.length]? =
      (Payload.fill (size - 1) payload).bytes[message.length]? := by
    rw [hlength, hbuffer, overwrite, List.getElem?_append_left hlt]
  constructor
  · intro hafter
    exact hterminator ▸ hafter.terminator
  · intro hzero
    have hboundary := Utf8.isBoundary_of_zero hzero
    rw [hfresh, Utf8.isBoundary_iff] at hboundary
    obtain ⟨front, hfront, hsize⟩ := hboundary
    rw [hfresh, ← hsize, Utf8.take_encode_of_isPrefix hfront] at hcontent
    exact orderly_of_content hcontent (hterminator.trans hzero)

/-- The terminator is still there, and so is the end of the old text, which has to begin with a
character. -/
theorem Orderly.set_iff_of_le (horderly : message.Orderly)
    (hbroke : (message.set level timestamp payload).2 = true)
    (hle : (Payload.fill (size - 1) payload).bytes.length ≤ message.length) :
    (message.set level timestamp payload).1.Orderly ↔
      Utf8.isBoundary message.content (Payload.fill (size - 1) payload).bytes.length = true := by
  obtain ⟨hlength, hbuffer⟩ := set_of_broken hbroke
  obtain ⟨fresh, hfresh⟩ := Payload.exists_fill_eq_encode (size - 1) payload
  have hcontent := content_set_of_le hbroke hle
  have hterminator : (message.set level timestamp payload).1.buffer[
      (message.set level timestamp payload).1.length]? = some 0 := by
    rw [hlength, hbuffer, overwrite, List.getElem?_append_right hle, List.getElem?_drop,
      Nat.add_sub_cancel' hle]
    exact horderly.terminator
  constructor
  · intro hafter
    rw [← hafter.bytes_text, hfresh] at hcontent
    obtain ⟨back, -, hback⟩ := Utf8.encode_eq_append hcontent
    have hsplit := Utf8.isBoundary_append_encode (message.content.take (Utf8.encode fresh).length) back
    rw [← hback, List.take_append_drop, List.length_take, message.length_content] at hsplit
    rw [hfresh] at hle ⊢
    rwa [Nat.min_eq_left hle] at hsplit
  · intro hboundary
    rw [← horderly.bytes_text, Utf8.bytes, Utf8.isBoundary_iff] at hboundary
    obtain ⟨front, ⟨back, hchars⟩, hsize⟩ := hboundary
    have hback : message.content.drop (Payload.fill (size - 1) payload).bytes.length =
        Utf8.encode back := by
      rw [← horderly.bytes_text, Utf8.bytes, ← hchars, Utf8.encode_append, ← hsize,
        ← Utf8.length_encode, List.drop_left]
    have hwhole : (message.set level timestamp payload).1.content = Utf8.encode (fresh ++ back) := by
      rw [hcontent, hback, Utf8.encode_append, hfresh]
    exact orderly_of_content hwhole hterminator

theorem Orderly.set_iff (horderly : message.Orderly)
    (hbroke : (message.set level timestamp payload).2 = true) :
    (message.set level timestamp payload).1.Orderly ↔ message.Spares payload := by
  rcases Nat.lt_or_ge message.length (Payload.fill (size - 1) payload).bytes.length with hlt | hle
  · rw [orderly_set_iff_of_lt hbroke hlt]
    simp [Spares, Nat.not_le.2 hlt]
  · rw [horderly.set_iff_of_le hbroke hle]
    simp [Spares, hle]

end Message

end LogRelay
