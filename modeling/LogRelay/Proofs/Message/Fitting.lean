import LogRelay.Capture
import LogRelay.Proofs.Text.Decoding
import Mathlib.Algebra.Group.Nat.Defs

/-!
# What a message holds of its payload

A payload that stops at its first failed piece and never breaks down leaves in a message the longest
beginning of its text that fits. The report about refused messages fits whole into every message of at
least 42 bytes. A text that fits whole is held whole, whatever the payload does about failures.
-/

namespace LogRelay

/-- Writing stops at the first piece that fails, and no piece breaks down. -/
def Payload.IsStrict (payload : Payload) : Prop :=
  ∀ segment ∈ payload, segment.tolerant = false ∧ Piece.breakdown ∉ segment.pieces

instance (payload : Payload) : Decidable payload.IsStrict :=
  inferInstanceAs (Decidable (∀ _ ∈ payload, _))

/-- The longest beginning of a payload's text that fits into a room. -/
def Payload.fitted (room : Nat) (payload : Payload) : String :=
  String.ofList (Utf8.fit room payload.spell.1.toList)

/-- What fits is a beginning of the text, and every beginning that fits is a beginning of it. -/
theorem Payload.fitted_longest (room : Nat) (payload : Payload) :
    (payload.fitted room).toList <+: payload.spell.1.toList ∧
      Utf8.size (payload.fitted room).toList ≤ room ∧
      ∀ front, front <+: payload.spell.1.toList → Utf8.size front ≤ room →
        front <+: (payload.fitted room).toList := by
  rw [Payload.fitted, String.toList_ofList]
  refine ⟨Utf8.fit_isPrefix _ _, Utf8.size_fit_le _ _, ?_⟩
  intro front hfront hroom
  exact Utf8.isPrefix_fit hfront hroom

/-! ## Filling a room -/

/-- Strict pieces write all of their text when it fits, and fail behind what fits otherwise. -/
theorem Segment.fillPieces_strict {room : Nat} {pieces : List Piece}
    (hpieces : Piece.breakdown ∉ pieces) :
    Segment.fillPieces false room pieces =
      ⟨Utf8.encode (Utf8.fit room (Segment.spellPieces false pieces).1.toList),
        if Utf8.size (Segment.spellPieces false pieces).1.toList ≤ room then
          (Segment.spellPieces false pieces).2
        else .failed⟩ := by
  induction pieces generalizing room with
  | nil => simp [Segment.fillPieces, Segment.spellPieces, Utf8.fit, Utf8.size]
  | cons piece rest induction =>
      simp only [List.mem_cons, not_or] at hpieces
      cases piece with
      | breakdown => exact absurd rfl hpieces.1
      | failure => simp [Segment.fillPieces, Segment.spellPieces, Utf8.fit, Utf8.size]
      | text content =>
          simp only [Segment.fillPieces, Segment.spellPieces, Piece.cut, String.toList_append,
            Utf8.size_append]
          by_cases hroom : Utf8.size content.toList ≤ room
          · have hsize : Utf8.size (Segment.spellPieces false rest).1.toList ≤
                room - Utf8.size content.toList ↔
                Utf8.size content.toList + Utf8.size (Segment.spellPieces false rest).1.toList ≤
                  room := by omega
            simp [hroom, Utf8.length_encode, induction hpieces.2, Utf8.fit_append_of_le, hsize]
          · have hsize : ¬Utf8.size content.toList +
                Utf8.size (Segment.spellPieces false rest).1.toList ≤ room := by omega
            simp [hroom, hsize, Utf8.fit_append_of_lt (Nat.lt_of_not_le hroom)]

/-- A strict payload writes all of its text when it fits, and fails behind what fits otherwise. -/
theorem Payload.fill_strict {room : Nat} {payload : Payload} (hpayload : payload.IsStrict) :
    Payload.fill room payload =
      ⟨Utf8.encode (Utf8.fit room payload.spell.1.toList),
        if Utf8.size payload.spell.1.toList ≤ room then payload.spell.2 else .failed⟩ := by
  induction payload generalizing room with
  | nil => simp [Payload.fill, Payload.spell, Utf8.fit, Utf8.size]
  | cons segment rest induction =>
      obtain ⟨htolerant, hpieces⟩ := hpayload segment List.mem_cons_self
      have hrest : Payload.IsStrict rest := fun other hother =>
        hpayload other (List.mem_cons_of_mem segment hother)
      have hfirst : segment.fill room =
          ⟨Utf8.encode (Utf8.fit room segment.spell.1.toList),
            if Utf8.size segment.spell.1.toList ≤ room then segment.spell.2 else .failed⟩ := by
        rw [Segment.fill, Segment.spell, htolerant]
        exact Segment.fillPieces_strict hpieces
      simp only [Payload.fill, Payload.spell, hfirst]
      by_cases hdone : segment.spell.2 = .completed
      · by_cases hroom : Utf8.size segment.spell.1.toList ≤ room
        · have hsize : Utf8.size (Payload.spell rest).1.toList ≤
              room - Utf8.size segment.spell.1.toList ↔
              Utf8.size segment.spell.1.toList + Utf8.size (Payload.spell rest).1.toList ≤ room := by
            omega
          simp [hdone, hroom, Utf8.fit_eq_self hroom, Utf8.length_encode, induction hrest,
            Utf8.fit_append_of_le, hsize]
        · have hsize : ¬Utf8.size segment.spell.1.toList +
              Utf8.size (Payload.spell rest).1.toList ≤ room := by omega
          simp [hdone, hroom, hsize, Utf8.fit_append_of_lt (Nat.lt_of_not_le hroom)]
      · by_cases hroom : Utf8.size segment.spell.1.toList ≤ room
        · simp [hdone, hroom]
        · simp [hdone, hroom]

/-- Pieces whose text fits write what they write into unbounded room, tolerant or not. -/
theorem Segment.fillPieces_of_size_le {tolerant : Bool} {room : Nat} {pieces : List Piece}
    (hroom : Utf8.size (Segment.spellPieces tolerant pieces).1.toList ≤ room) :
    Segment.fillPieces tolerant room pieces =
      ⟨Utf8.encode (Segment.spellPieces tolerant pieces).1.toList,
        (Segment.spellPieces tolerant pieces).2⟩ := by
  induction pieces generalizing room with
  | nil => simp [Segment.fillPieces, Segment.spellPieces]
  | cons piece rest induction =>
      cases piece with
      | breakdown => simp [Segment.fillPieces, Segment.spellPieces]
      | failure =>
          simp only [Segment.spellPieces] at hroom
          simp only [Segment.fillPieces, Segment.spellPieces]
          split
          · next htolerant =>
            rw [if_pos htolerant] at hroom
            exact induction hroom
          · simp
      | text content =>
          simp only [Segment.spellPieces, String.toList_append, Utf8.size_append] at hroom
          have hroomLeft : Utf8.size (Segment.spellPieces tolerant rest).1.toList ≤
              room - Utf8.size content.toList := by omega
          have hrest := induction hroomLeft
          have hcontent : Utf8.size content.toList ≤ room := by omega
          simp [Segment.fillPieces, Segment.spellPieces, Piece.cut, hcontent, Utf8.length_encode,
            hrest]

/-- A payload whose text fits writes what it writes into unbounded room. -/
theorem Payload.fill_of_size_le {room : Nat} {payload : Payload}
    (hroom : Utf8.size payload.spell.1.toList ≤ room) :
    Payload.fill room payload = ⟨Utf8.encode payload.spell.1.toList, payload.spell.2⟩ := by
  induction payload generalizing room with
  | nil => simp [Payload.fill, Payload.spell]
  | cons segment rest induction =>
      by_cases hdone : segment.spell.2 = .completed
      · simp only [Payload.spell, hdone, if_true, String.toList_append, Utf8.size_append] at hroom
        have hfirst : segment.fill room =
            ⟨Utf8.encode segment.spell.1.toList, segment.spell.2⟩ :=
          Segment.fillPieces_of_size_le (Nat.le_trans (Nat.le_add_right _ _) hroom)
        have hrest := induction (Nat.le_sub_of_add_le' hroom)
        simp [Payload.fill, Payload.spell, hfirst, hdone, Utf8.length_encode, hrest]
      · simp only [Payload.spell, hdone, if_false] at hroom
        have hfirst : segment.fill room =
            ⟨Utf8.encode segment.spell.1.toList, segment.spell.2⟩ :=
          Segment.fillPieces_of_size_le hroom
        simp [Payload.fill, Payload.spell, hfirst, hdone]

theorem Segment.spellPieces_ne_brokeDown {pieces : List Piece} (hpieces : Piece.breakdown ∉ pieces) :
    (Segment.spellPieces false pieces).2 ≠ .brokeDown := by
  induction pieces with
  | nil => simp [Segment.spellPieces]
  | cons piece rest induction =>
      simp only [List.mem_cons, not_or] at hpieces
      cases piece with
      | breakdown => exact absurd rfl hpieces.1
      | failure => simp [Segment.spellPieces]
      | text content => exact induction hpieces.2

theorem Payload.spell_ne_brokeDown {payload : Payload} (hpayload : payload.IsStrict) :
    payload.spell.2 ≠ .brokeDown := by
  induction payload with
  | nil => simp [Payload.spell]
  | cons segment rest induction =>
      obtain ⟨htolerant, hpieces⟩ := hpayload segment List.mem_cons_self
      have hfirst : segment.spell.2 ≠ .brokeDown := by
        rw [Segment.spell, htolerant]
        exact Segment.spellPieces_ne_brokeDown hpieces
      rw [Payload.spell]
      simp only
      split
      · exact induction fun other hother => hpayload other (List.mem_cons_of_mem segment hother)
      · exact hfirst

theorem Payload.text?_eq_some {payload : Payload} {text : String} :
    payload.text? = some text ↔ payload.spell.2 = .completed ∧ payload.spell.1 = text := by
  simp [Payload.text?]

theorem Payload.text?_ofText (text : String) : (Payload.ofText text).text? = some text := by
  simp [ofText, text?, spell, Segment.ofText, Segment.spell, Segment.spellPieces]

/-! ## What is kept -/

/-- The text that a payload leaves in a room. -/
def Payload.kept (room : Nat) (payload : Payload) : String :=
  Utf8.text (Payload.fill room payload).bytes

theorem Payload.ending_fill_strict {room : Nat} {payload : Payload} (hpayload : payload.IsStrict) :
    (payload.fill room).ending ≠ .brokeDown := by
  rw [fill_strict hpayload]
  simp only
  split
  · exact spell_ne_brokeDown hpayload
  · simp

theorem Payload.kept_strict {room : Nat} {payload : Payload} (hpayload : payload.IsStrict) :
    payload.kept room = payload.fitted room := by
  rw [kept, fill_strict hpayload, Utf8.text_encode, fitted]

theorem Payload.kept_of_size_le {room : Nat} {payload : Payload} {text : String}
    (htext : payload.text? = some text) (hroom : Utf8.size text.toList ≤ room) :
    payload.kept room = text := by
  obtain ⟨-, rfl⟩ := Payload.text?_eq_some.1 htext
  rw [kept, fill_of_size_le hroom, Utf8.text_encode, String.ofList_toList]

theorem Segment.ending_fillPieces_ne_brokeDown {tolerant : Bool} {room : Nat} {pieces : List Piece}
    (hspell : (Segment.spellPieces tolerant pieces).2 = .completed) :
    (Segment.fillPieces tolerant room pieces).ending ≠ .brokeDown := by
  induction pieces generalizing room with
  | nil => simp [Segment.fillPieces]
  | cons piece rest induction =>
      cases piece with
      | breakdown => simp [Segment.spellPieces] at hspell
      | failure =>
          simp only [Segment.spellPieces] at hspell
          simp only [Segment.fillPieces]
          split
          · next htolerant =>
            rw [if_pos htolerant] at hspell
            exact induction hspell
          · simp
      | text content =>
          simp only [Segment.fillPieces]
          split
          · exact induction hspell
          · simp

theorem Payload.ending_fill_ne_brokeDown {room : Nat} {payload : Payload}
    (hspell : payload.spell.2 = .completed) : (payload.fill room).ending ≠ .brokeDown := by
  induction payload generalizing room with
  | nil => simp [Payload.fill]
  | cons segment rest induction =>
      by_cases hfirst : segment.spell.2 = .completed
      · simp only [Payload.spell, hfirst, if_true] at hspell
        simp only [Payload.fill]
        split
        · exact induction hspell
        · exact Segment.ending_fillPieces_ne_brokeDown hfirst
      · simp only [Payload.spell, hfirst, if_false] at hspell

/-! ## Setting a message -/

/-- What a reader gets from a message. -/
structure View where
  /-- How urgent it is. -/
  level : Level
  /-- When it was captured. -/
  time : Duration
  /-- Its text. -/
  text : String
deriving DecidableEq, Repr

namespace Message

variable {size : Nat}

/-- A message as a reader gets it. -/
def view (message : Message size) : View := ⟨message.level, message.timestamp, message.text⟩

theorem view_set (message : Message size) (level : Level) (time : Duration) {payload : Payload}
    (hending : (Payload.fill (size - 1) payload).ending ≠ .brokeDown) :
    (message.set level time payload).2 = false ∧
      (message.set level time payload).1.view = ⟨level, time, payload.kept (size - 1)⟩ := by
  simp only [set, hending, if_false, view, Message.text, content, overwrite, true_and]
  rw [List.append_assoc, List.take_left, Payload.kept]

theorem set_strict (message : Message size) (level : Level) (time : Duration) {payload : Payload}
    (hpayload : payload.IsStrict) :
    (message.set level time payload).2 = false ∧
      (message.set level time payload).1.view = ⟨level, time, payload.fitted (size - 1)⟩ := by
  have hset := message.view_set level time (Payload.ending_fill_strict hpayload)
  rwa [Payload.kept_strict hpayload] at hset

end Message

/-! ## The report about refused messages -/

/-- The text that reports a number of refused messages. -/
def reportText (count : Nat) : String :=
  "Dropped " ++ toString count ++ " real-time log messages"

theorem size_reportText_le {count : Nat} (hcount : count < 2 ^ 32) :
    Utf8.size (reportText count).toList ≤ 41 := by
  have hdigits : (toString count).toList = Nat.toDigits 10 count := Nat.toList_repr
  have hlength : (Nat.toDigits 10 count).length ≤ 10 :=
    (Nat.length_toDigits_le_iff (by decide) (by decide)).2 (Nat.lt_of_lt_of_le hcount (by decide))
  have hsize : Utf8.size (Nat.toDigits 10 count) = (Nat.toDigits 10 count).length :=
    Utf8.size_of_isDigit fun _ hmem => Nat.isDigit_of_mem_toDigits (by decide) (by decide) hmem
  have hfront : Utf8.size "Dropped ".toList = 8 := by decide
  have hback : Utf8.size " real-time log messages".toList = 23 := by decide
  rw [reportText, String.toList_append, String.toList_append, Utf8.size_append, Utf8.size_append,
    hdigits, hsize, hfront, hback]
  omega

theorem isStrict_dropReport (count : UInt32) : (Flow.dropReport count).IsStrict := by
  intro segment hsegment
  rw [List.mem_singleton.1 hsegment]
  simp

theorem fitted_dropReport {size : Nat} (hsize : 42 ≤ size) (count : UInt32) :
    (Flow.dropReport count).fitted (size - 1) = reportText count.toNat := by
  have hspell : (Flow.dropReport count).spell.1 = reportText count.toNat := by
    simp [Flow.dropReport, Payload.spell, Segment.spell, Segment.spellPieces, reportText,
      String.append_assoc]
  have hfits := size_reportText_le count.toNat_lt
  rw [Payload.fitted, hspell, Utf8.fit_eq_self (by omega), String.ofList_toList]

end LogRelay
