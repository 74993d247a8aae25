import LogRelay.Proofs.Message.Fitting
import LogRelay.Proofs.Text.Boundaries

/-!
# What a buffer is filled with

A window is never reached outside of its buffer. Whatever a payload does about failures, the window then
holds what the payload writes into a room of the size of the buffer, with the rest of the buffer behind it.
For a payload that stops at its first failed piece this is the longest beginning of its text that fits,
however the text is divided into pieces.
-/

namespace LogRelay

namespace Window

/-- A window with some bytes written and others left. -/
def divided (written rest : Bytes) : Window := ⟨written ++ rest, written.length⟩

variable {written rest : Bytes}

theorem onto_eq_divided (buffer : Bytes) : onto buffer = divided [] buffer := rfl

/-! ## One text -/

theorem copy?_divided {source : Bytes} (hroom : source.length ≤ rest.length) :
    (divided written rest).copy? source source.length =
      some (divided (written ++ source) (rest.drop source.length)) := by
  have hrange : written.length ≤ written.length + source.length ∧
      written.length + source.length ≤ (written ++ rest).length ∧
      source.length = written.length + source.length - written.length := by
    rw [List.length_append]
    omega
  rw [copy?, divided, copyOver?, if_pos hrange, Option.map_some, List.take_left,
    List.drop_length_add_append, divided, List.length_append]

/-- A text is written up to the last character that fits. -/
theorem put?_divided (content : String) :
    (divided written rest).put? (Utf8.bytes content) =
      let part := Piece.cut rest.length content
      some (divided (written ++ Utf8.encode part.1) (rest.drop (Utf8.encode part.1).length),
        part.2) := by
  have hroom : difference? (divided written rest).buffer.length (divided written rest).filled =
      some rest.length := by
    simp [difference?, divided]
  have hlength : (Utf8.bytes content).length = Utf8.size content.toList := Utf8.length_encode _
  rw [put?, hroom, Option.bind_some, hlength]
  simp only [Piece.cut]
  split
  · next hfits =>
    rw [← hlength, copy?_divided (hlength ▸ hfits)]
    rfl
  · next hlong =>
    have hprefix := Utf8.fit_isPrefix rest.length content.toList
    have hcut := Utf8.lastBoundary?_encode content.toList rest.length (Nat.le_of_not_le hlong)
    have hpart : upTo? (Utf8.bytes content) (Utf8.size (Utf8.fit rest.length content.toList)) =
        some (Utf8.encode (Utf8.fit rest.length content.toList)) := by
      rw [upTo?, if_pos, Utf8.bytes, Utf8.take_encode_of_isPrefix hprefix]
      rw [hlength]
      exact Nat.le_trans (Utf8.size_fit_le _ _) (Nat.le_of_not_le hlong)
    rw [Utf8.bytes, hcut, Option.bind_some, ← Utf8.bytes, hpart, Option.bind_some,
      ← Utf8.length_encode, copy?_divided]
    · rfl
    · rw [Utf8.length_encode]
      exact Utf8.size_fit_le _ _

/-! ## Whole payloads -/

/-- Pieces fill a window with what they write into its room. -/
theorem putPieces?_divided (tolerant : Bool) (pieces : List Piece) :
    (divided written rest).putPieces? tolerant pieces =
      let filled := Segment.fillPieces tolerant rest.length pieces
      some (divided (written ++ filled.bytes) (rest.drop filled.bytes.length), filled.ending) := by
  induction pieces generalizing written rest with
  | nil => simp [putPieces?, Segment.fillPieces]
  | cons piece others induction =>
      cases piece with
      | breakdown => simp [putPieces?, Segment.fillPieces]
      | failure =>
          simp only [putPieces?, Segment.fillPieces]
          split
          · exact induction
          · simp
      | text content =>
          simp only [putPieces?, Segment.fillPieces, put?_divided, Option.bind_some]
          split
          · rw [induction]
            simp [List.drop_drop]
          · rfl

theorem fill?_divided (payload : Payload) :
    (divided written rest).fill? payload =
      let filled := payload.fill rest.length
      some (divided (written ++ filled.bytes) (rest.drop filled.bytes.length), filled.ending) := by
  induction payload generalizing written rest with
  | nil => simp [fill?, Payload.fill]
  | cons segment others induction =>
      simp only [fill?, Payload.fill, Segment.fill, putPieces?_divided, Option.bind_some]
      by_cases hdone : (Segment.fillPieces segment.tolerant rest.length segment.pieces).ending =
          .completed
      · simp [hdone, induction, List.drop_drop]
      · simp [hdone]

end Window

/-! ## The text of a payload -/

/-- The text of a piece that is one. -/
def Piece.text? : Piece → Option String
  | text content => some content
  | failure => none
  | breakdown => none

/-- The characters of the texts that a payload hands over before its first failure. -/
def Payload.said (payload : Payload) : List Char :=
  (((payload.flatMap Segment.pieces).takeWhile (· ≠ .failure)).filterMap Piece.text?).flatMap
    String.toList

theorem Segment.spellPieces_strict {pieces : List Piece} (hpieces : Piece.breakdown ∉ pieces) :
    (Segment.spellPieces false pieces).1.toList =
        ((pieces.takeWhile (· ≠ .failure)).filterMap Piece.text?).flatMap String.toList ∧
      ((Segment.spellPieces false pieces).2 = .completed ↔ Piece.failure ∉ pieces) := by
  induction pieces with
  | nil => simp [Segment.spellPieces]
  | cons piece rest induction =>
      simp only [List.mem_cons, not_or] at hpieces
      obtain ⟨htext, hending⟩ := induction hpieces.2
      cases piece with
      | breakdown => exact absurd rfl hpieces.1
      | failure => simp [Segment.spellPieces]
      | text content => simp [Segment.spellPieces, htext, hending, Piece.text?]

/-- A strict payload spells the texts that it hands over before its first failure. -/
theorem Payload.spell_strict {payload : Payload} (hpayload : payload.IsStrict) :
    payload.spell.1.toList = payload.said := by
  induction payload with
  | nil => simp [Payload.spell, Payload.said]
  | cons segment rest induction =>
      obtain ⟨htolerant, hpieces⟩ := hpayload segment List.mem_cons_self
      have hrest := induction fun other hother => hpayload other (List.mem_cons_of_mem segment hother)
      obtain ⟨htext, hending⟩ := Segment.spellPieces_strict hpieces
      have hspell : segment.spell = Segment.spellPieces false segment.pieces := by
        rw [Segment.spell, htolerant]
      rw [← hspell] at htext hending
      simp only [Payload.spell, Payload.said, List.flatMap_cons]
      by_cases hfailure : Piece.failure ∈ segment.pieces
      · have hstops : (segment.pieces.takeWhile (· ≠ .failure)).length ≠ segment.pieces.length := by
          intro hlength
          have hmem : Piece.failure ∈ segment.pieces.takeWhile (· ≠ .failure) := by
            rw [(List.takeWhile_prefix _).eq_of_length hlength]
            exact hfailure
          exact absurd (List.all_eq_true.1 List.all_takeWhile _ hmem) (by simp)
        rw [if_neg fun hdone => hending.1 hdone hfailure, htext, List.takeWhile_append, if_neg hstops]
      · have hgoesOn : ∀ piece ∈ segment.pieces, decide (piece ≠ Piece.failure) = true :=
          fun piece hpiece => decide_eq_true fun hsame => hfailure (hsame ▸ hpiece)
        have hwhole : segment.pieces.takeWhile (· ≠ .failure) = segment.pieces := by
          have happend := @List.takeWhile_append_of_pos _ _ segment.pieces [] hgoesOn
          simpa using happend
        rw [if_pos (hending.2 hfailure), String.toList_append, htext, hrest, hwhole,
          List.takeWhile_append_of_pos hgoesOn, List.filterMap_append, List.flatMap_append,
          Payload.said]

/-- A payload that stops at its first failed piece fills a buffer with the longest beginning of its text
that fits. Nothing is reached outside of the buffer or of a text, what is counted is what was written, and
the rest of the buffer stays as it was. How the text is divided into pieces does not matter. -/
theorem Window.fill?_longest (buffer : Bytes) {payload : Payload} (hpayload : payload.IsStrict) :
    ∃ front ending, (onto buffer).fill? payload =
        some (⟨Utf8.encode front ++ buffer.drop (Utf8.encode front).length,
          (Utf8.encode front).length⟩, ending) ∧
      ending ≠ .brokeDown ∧
      front <+: payload.said ∧ (Utf8.encode front).length ≤ buffer.length ∧
      (∀ other, other <+: payload.said → (Utf8.encode other).length ≤ buffer.length →
        other <+: front) ∧
      ∀ second : Payload, second.IsStrict → second.said = payload.said →
        ((onto buffer).fill? second).map Prod.fst = ((onto buffer).fill? payload).map Prod.fst := by
  have hfill : ∀ other : Payload, other.IsStrict → (onto buffer).fill? other =
      some (⟨Utf8.encode (Utf8.fit buffer.length other.said) ++
          buffer.drop (Utf8.encode (Utf8.fit buffer.length other.said)).length,
        (Utf8.encode (Utf8.fit buffer.length other.said)).length⟩,
        if Utf8.size other.said ≤ buffer.length then other.spell.2 else .failed) := by
    intro other hother
    rw [onto_eq_divided, fill?_divided]
    simp only [Payload.fill_strict hother, Payload.spell_strict hother, List.nil_append]
    rfl
  refine ⟨_, _, hfill payload hpayload, ?_, Utf8.fit_isPrefix _ _, ?_, ?_, ?_⟩
  · split
    · exact Payload.spell_ne_brokeDown hpayload
    · exact Ending.noConfusion
  · rw [Utf8.length_encode]
    exact Utf8.size_fit_le _ _
  · intro other hother hroom
    rw [Utf8.length_encode] at hroom
    exact Utf8.isPrefix_fit hother hroom
  · intro second hsecond hsaid
    rw [hfill second hsecond, hfill payload hpayload, hsaid]
    rfl

/-- Of a text in three pieces what fits into four bytes is written, up to the character that does not; in
one piece the text leaves the same. -/
theorem Window.cut_fill_longest :
    let pieces : Payload := [⟨[.text "ab", .text "", .text "cé", .text "d"], false⟩]
    let whole : Payload := [⟨[.text "abcéd", .failure, .text "e"], false⟩]
    pieces.IsStrict ∧ whole.IsStrict ∧
      (onto (List.replicate 4 170)).fill? pieces = some (⟨[97, 98, 99, 170], 3⟩, .failed) ∧
      ((onto (List.replicate 4 170)).fill? whole).map Prod.fst = some ⟨[97, 98, 99, 170], 3⟩ := by
  intro pieces whole
  have hpieces : pieces.IsStrict := by decide
  have hwhole : whole.IsStrict := by decide
  have hfill : (onto (List.replicate 4 170)).fill? pieces =
      some (⟨[97, 98, 99, 170], 3⟩, .failed) := by decide +kernel
  obtain ⟨-, -, -, -, -, -, -, hsame⟩ := fill?_longest (List.replicate 4 170) hpieces
  refine ⟨hpieces, hwhole, hfill, ?_⟩
  rw [hsame whole hwhole (by decide +kernel), hfill]
  rfl

end LogRelay
