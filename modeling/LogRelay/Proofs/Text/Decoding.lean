import LogRelay.Text.Utf8

/-!
# Reading texts back

The bytes of a text are read back as the text, and the part of a text that fits into a room is the
longest of its beginnings that does.
-/

namespace LogRelay.Utf8

theorem firstChar?_encode_append (char : Char) (rest : Bytes) :
    firstChar? (String.utf8EncodeChar char ++ rest) = some char := by
  have hlength : (String.utf8EncodeChar char).length ≤ 4 := by
    rw [String.length_utf8EncodeChar]
    exact char.utf8Size_le_four
  rw [firstChar?, List.take_append, List.take_of_length_le hlength, List.toByteArray_append]
  exact ByteArray.utf8DecodeChar?_utf8EncodeChar_append

theorem firstChar?_nil : firstChar? [] = none := by decide

theorem decodeUpTo_encode {limit : Nat} {chars : List Char} (hlimit : chars.length ≤ limit) :
    decodeUpTo limit (encode chars) = chars := by
  induction chars generalizing limit with
  | nil =>
      cases limit with
      | zero => rfl
      | succ limit => rw [encode_nil, decodeUpTo, firstChar?_nil]
  | cons char rest induction =>
      cases limit with
      | zero => exact absurd hlimit (by simp)
      | succ limit =>
          have hdrop : (String.utf8EncodeChar char ++ encode rest).drop char.utf8Size =
              encode rest := by
            rw [← String.length_utf8EncodeChar, List.drop_left]
          rw [encode_cons, decodeUpTo, firstChar?_encode_append]
          simp only [hdrop]
          rw [induction (Nat.le_of_succ_le_succ hlimit)]

theorem length_le_size (chars : List Char) : chars.length ≤ size chars := by
  induction chars with
  | nil => exact Nat.le_refl _
  | cons char rest induction =>
      have hpos := char.utf8Size_pos
      rw [List.length_cons, size]
      omega

theorem decode_encode (chars : List Char) : decode (encode chars) = chars := by
  apply decodeUpTo_encode
  rw [length_encode]
  exact length_le_size chars

theorem text_encode (chars : List Char) : text (encode chars) = String.ofList chars := by
  rw [text, decode_encode]

theorem size_of_isDigit {chars : List Char} (hdigits : ∀ char ∈ chars, char.isDigit = true) :
    size chars = chars.length := by
  induction chars with
  | nil => rfl
  | cons char rest induction =>
      have hone : char.utf8Size = 1 := by
        have hdigit := hdigits char List.mem_cons_self
        simp only [Char.isDigit, Bool.and_eq_true, decide_eq_true_eq] at hdigit
        rw [Char.utf8Size_eq_one_iff]
        exact UInt32.le_trans hdigit.2 (by decide)
      rw [size, hone, List.length_cons, Nat.add_comm,
        induction fun other hother => hdigits other (List.mem_cons_of_mem char hother)]

/-! ## What fits -/

theorem fit_append_of_le {room : Nat} {front : List Char} (hroom : size front ≤ room)
    (back : List Char) : fit room (front ++ back) = front ++ fit (room - size front) back := by
  induction front generalizing room with
  | nil => rfl
  | cons char front induction =>
      rw [size] at hroom
      rw [List.cons_append, fit, if_pos (by omega), induction (by omega), size, Nat.sub_add_eq]
      rfl

theorem fit_append_of_lt {room : Nat} {front : List Char} (hroom : room < size front)
    (back : List Char) : fit room (front ++ back) = fit room front := by
  induction front generalizing room with
  | nil => exact absurd hroom (Nat.not_lt_zero _)
  | cons char front induction =>
      rw [size] at hroom
      rw [List.cons_append, fit, fit]
      split
      · rw [induction (by omega)]
      · rfl

theorem isPrefix_fit {room : Nat} {front chars : List Char} (hfront : front <+: chars)
    (hroom : size front ≤ room) : front <+: fit room chars := by
  obtain ⟨back, rfl⟩ := hfront
  rw [fit_append_of_le hroom]
  exact List.prefix_append _ _

end LogRelay.Utf8
