import LogRelay.Proofs.Message.Orderly
import LogRelay.Proofs.Message.Window

/-!
# Payloads that go on behind a cut

A payload that does not stop at its first failed piece writes of each of its texts what fits behind those
before. That is a beginning of the whole text exactly if behind the first text that is cut none begins with a
character for which there is room left.
-/

namespace LogRelay

namespace Utf8

/-- Of each text in turn the part that fits behind the parts before. -/
def fitEach : Nat → List (List Char) → List Char
  | _, [] => []
  | room, text :: rest => fit room text ++ fitEach (room - size (fit room text)) rest

/-- Behind the first text that does not fit whole, no text begins with a character that fits. -/
def ClosesAtCut : Nat → List (List Char) → Prop
  | _, [] => True
  | room, text :: rest =>
      if size text ≤ room then ClosesAtCut (room - size text) rest
      else ∀ later ∈ rest, ∀ first ∈ later.head?, room - size (fit room text) < first.utf8Size

instance decidableClosesAtCut :
    (room : Nat) → (texts : List (List Char)) → Decidable (ClosesAtCut room texts)
  | _, [] => inferInstanceAs (Decidable True)
  | room, text :: rest =>
      have := decidableClosesAtCut (room - size text) rest
      have (later : List Char) :
          Decidable (∀ first ∈ later.head?, room - size (fit room text) < first.utf8Size) :=
        Option.decidableForallMem later.head?
      inferInstanceAs (Decidable (if size text ≤ room then ClosesAtCut (room - size text) rest
        else ∀ later ∈ rest, ∀ first ∈ later.head?, room - size (fit room text) < first.utf8Size))

theorem fitEach_append (room : Nat) (front back : List (List Char)) :
    fitEach room (front ++ back) =
      fitEach room front ++ fitEach (room - size (fitEach room front)) back := by
  induction front generalizing room with
  | nil => rfl
  | cons text front induction =>
      simp only [List.cons_append, fitEach, induction, List.append_assoc, size_append, Nat.sub_add_eq]

theorem size_fitEach_le (room : Nat) (texts : List (List Char)) : size (fitEach room texts) ≤ room := by
  induction texts generalizing room with
  | nil => exact Nat.zero_le _
  | cons text rest induction =>
      have hpart := size_fit_le room text
      have hrest := induction (room - size (fit room text))
      rw [fitEach, size_append]
      omega

theorem fit_eq_nil_iff {room : Nat} {text : List Char} :
    fit room text = [] ↔ ∀ first ∈ text.head?, room < first.utf8Size := by
  cases text with
  | nil => simp [fit]
  | cons first rest =>
      rw [fit]
      split
      · next hfits => exact iff_of_false (List.cons_ne_nil _ _) fun hall => Nat.not_lt.2 hfits (hall first rfl)
      · next hlong =>
        refine iff_of_true rfl fun other hother => ?_
        obtain rfl := Option.some.inj hother
        exact Nat.lt_of_not_le hlong

theorem fitEach_eq_nil_iff {room : Nat} {texts : List (List Char)} :
    fitEach room texts = [] ↔ ∀ text ∈ texts, ∀ first ∈ text.head?, room < first.utf8Size := by
  induction texts with
  | nil => exact iff_of_true rfl fun text htext => absurd htext List.not_mem_nil
  | cons text rest induction =>
      rw [fitEach, List.append_eq_nil_iff, List.forall_mem_cons, ← fit_eq_nil_iff, ← induction]
      refine and_congr_right fun hnone => ?_
      rw [hnone]
      rfl

/-- Behind the part of a text that fits stands a character that does not. -/
theorem exists_next_of_cut {room : Nat} {text : List Char} (hlong : room < size text) :
    ∃ next rest, text = fit room text ++ next :: rest ∧
      room - size (fit room text) < next.utf8Size := by
  induction text generalizing room with
  | nil => exact absurd hlong (Nat.not_lt_zero _)
  | cons char text induction =>
      rw [size] at hlong
      by_cases hfits : char.utf8Size ≤ room
      · obtain ⟨next, rest, htext, hnext⟩ := @induction (room - char.utf8Size) (by omega)
        refine ⟨next, rest, ?_, ?_⟩
        · rw [fit, if_pos hfits, List.cons_append, ← htext]
        · rw [fit, if_pos hfits, size]
          omega
      · refine ⟨char, text, ?_, ?_⟩
        · rw [fit, if_neg hfits]
          rfl
        · rw [fit, if_neg hfits, size]
          omega

/-- What fits of each text is a beginning of the whole exactly if nothing fits behind the first cut. -/
theorem fitEach_isPrefix_iff {room : Nat} {texts : List (List Char)} :
    fitEach room texts <+: texts.flatten ↔ ClosesAtCut room texts := by
  induction texts generalizing room with
  | nil => exact iff_of_true List.nil_prefix trivial
  | cons text rest induction =>
      rw [fitEach, List.flatten_cons, ClosesAtCut]
      by_cases hroom : size text ≤ room
      · rw [if_pos hroom, fit_eq_self hroom, List.prefix_append_right_inj, induction]
      · rw [if_neg hroom, ← fitEach_eq_nil_iff]
        obtain ⟨next, more, htext, hnext⟩ := exists_next_of_cut (Nat.lt_of_not_le hroom)
        have hwhole : text ++ rest.flatten = fit room text ++ next :: (more ++ rest.flatten) := by
          conv => lhs; rw [htext]
          rw [List.append_assoc, List.cons_append]
        rw [hwhole, List.prefix_append_right_inj]
        constructor
        · intro hbegins
          cases hlater : fitEach (room - size (fit room text)) rest with
          | nil => rfl
          | cons first others =>
              have hsize := size_fitEach_le (room - size (fit room text)) rest
              rw [hlater] at hbegins hsize
              obtain ⟨rfl, -⟩ := List.cons_prefix_cons.1 hbegins
              rw [size] at hsize
              omega
        · intro hnothing
          rw [hnothing]
          exact List.nil_prefix

theorem fitEach_eq_fit_flatten {room : Nat} {texts : List (List Char)} (hcloses : ClosesAtCut room texts) :
    fitEach room texts = fit room texts.flatten := by
  induction texts generalizing room with
  | nil => rfl
  | cons text rest induction =>
      rw [ClosesAtCut] at hcloses
      rw [fitEach, List.flatten_cons]
      split at hcloses
      · next hroom => rw [fit_eq_self hroom, fit_append_of_le hroom, induction hcloses]
      · next hroom =>
        rw [fit_append_of_lt (Nat.lt_of_not_le hroom), fitEach_eq_nil_iff.2 hcloses, List.append_nil]

end Utf8

/-! ## Writing each text -/

/-- Writing goes on behind every piece that fails, and no piece breaks down. -/
def Payload.IsTolerant (payload : Payload) : Prop :=
  ∀ segment ∈ payload, segment.tolerant = true ∧ Piece.breakdown ∉ segment.pieces

instance (payload : Payload) : Decidable payload.IsTolerant :=
  inferInstanceAs (Decidable (∀ _ ∈ payload, _))

/-- The texts among some pieces. -/
def Piece.texts (pieces : List Piece) : List (List Char) := (pieces.filterMap Piece.text?).map String.toList

/-- The texts that a payload hands over. -/
def Payload.texts (payload : Payload) : List (List Char) := Piece.texts (payload.flatMap Segment.pieces)

theorem Piece.cut_fst (room : Nat) (content : String) :
    (Piece.cut room content).1 = Utf8.fit room content.toList := by
  simp only [Piece.cut]
  split
  · next hfits => exact (Utf8.fit_eq_self hfits).symm
  · rfl

theorem Segment.fillPieces_tolerant {room : Nat} {pieces : List Piece}
    (hpieces : Piece.breakdown ∉ pieces) :
    Segment.fillPieces true room pieces =
      ⟨Utf8.encode (Utf8.fitEach room (Piece.texts pieces)), .completed⟩ := by
  induction pieces generalizing room with
  | nil => rfl
  | cons piece rest induction =>
      simp only [List.mem_cons, not_or] at hpieces
      cases piece with
      | breakdown => exact absurd rfl hpieces.1
      | failure => exact induction hpieces.2
      | text content =>
          have htexts : Piece.texts (.text content :: rest) = content.toList :: Piece.texts rest := rfl
          simp only [Segment.fillPieces, Bool.or_true, if_true, Piece.cut_fst, Utf8.length_encode,
            induction hpieces.2, htexts, Utf8.fitEach, Utf8.encode_append]

/-- A tolerant payload always finishes, with what fits of each of its texts. -/
theorem Payload.fill_tolerant {room : Nat} {payload : Payload} (hpayload : payload.IsTolerant) :
    Payload.fill room payload = ⟨Utf8.encode (Utf8.fitEach room payload.texts), .completed⟩ := by
  induction payload generalizing room with
  | nil => rfl
  | cons segment rest induction =>
      obtain ⟨htolerant, hpieces⟩ := hpayload segment List.mem_cons_self
      have hrest : IsTolerant rest := fun other hother =>
        hpayload other (List.mem_cons_of_mem segment hother)
      have hfirst : segment.fill room =
          ⟨Utf8.encode (Utf8.fitEach room (Piece.texts segment.pieces)), .completed⟩ := by
        rw [Segment.fill, htolerant, Segment.fillPieces_tolerant hpieces]
      have htexts : texts (segment :: rest) = Piece.texts segment.pieces ++ texts rest := by
        simp only [texts, Piece.texts, List.flatMap_cons, List.filterMap_append, List.map_append]
      simp only [Payload.fill, hfirst, if_true, induction hrest, htexts, Utf8.fitEach_append,
        Utf8.encode_append, Utf8.length_encode]

/-- A payload that goes on behind its failures fills a buffer, and sets a message with as much room, to a
well-formed text, and the rest of the buffer stays as it was. The text is a beginning of all that the payload
hands over exactly if nothing fits behind the first text that is cut; it is then the longest one that fits. -/
theorem Window.fill?_tolerant (buffer : Bytes) {payload : Payload} (hpayload : payload.IsTolerant) :
    ∃ kept, (onto buffer).fill? payload =
        some (⟨Utf8.encode kept ++ buffer.drop (Utf8.encode kept).length,
          (Utf8.encode kept).length⟩, .completed) ∧
      (Utf8.encode kept).length ≤ buffer.length ∧
      Utf8.text? (Utf8.encode kept) = some (String.ofList kept) ∧
      (∀ {size} (message : Message size) level timestamp, size - 1 = buffer.length →
        (message.set level timestamp payload).2 = false ∧
          (message.set level timestamp payload).1.content = Utf8.encode kept ∧
          (message.set level timestamp payload).1.text = String.ofList kept) ∧
      (kept <+: payload.texts.flatten ↔ Utf8.ClosesAtCut buffer.length payload.texts) ∧
      (kept <+: payload.texts.flatten → kept = Utf8.fit buffer.length payload.texts.flatten) := by
  refine ⟨Utf8.fitEach buffer.length payload.texts, ?_, ?_, ?_, ?_, Utf8.fitEach_isPrefix_iff, ?_⟩
  · rw [onto_eq_divided, fill?_divided]
    simp only [Payload.fill_tolerant hpayload, List.nil_append]
    rfl
  · rw [Utf8.length_encode]
    exact Utf8.size_fitEach_le _ _
  · rw [Utf8.text?, Utf8.decode_encode, if_pos (Utf8.length_encode _).symm]
  · intro size message level timestamp hsize
    have hfill := @Payload.fill_tolerant (size - 1) payload hpayload
    have hdone : (message.set level timestamp payload).2 = false := by
      rw [Bool.eq_false_iff, ne_eq, Message.set_breaks_iff, hfill]
      exact Ending.noConfusion
    have hcontent := Message.content_set hdone
    rw [hfill, hsize] at hcontent
    exact ⟨hdone, hcontent, Message.text_of_content hcontent⟩
  · exact fun hbegins => Utf8.fitEach_eq_fit_flatten (Utf8.fitEach_isPrefix_iff.1 hbegins)

/-- Behind a cut that leaves room for one byte, texts that are empty or begin with a longer character are
left out. -/
theorem Window.closed_cut_fill_tolerant :
    let payload : Payload := [⟨[.text "ab", .text "é", .failure, .text "", .text "漢c"], true⟩]
    payload.IsTolerant ∧ Utf8.ClosesAtCut 3 payload.texts ∧
      (onto (List.replicate 3 170)).fill? payload = some (⟨[97, 98, 170], 2⟩, .completed) ∧
      ['a', 'b'] <+: payload.texts.flatten := by
  intro payload
  have hpayload : payload.IsTolerant := by decide
  have hcloses : Utf8.ClosesAtCut 3 payload.texts := by decide +kernel
  have hfit : Utf8.fit 3 payload.texts.flatten = ['a', 'b'] := by decide +kernel
  obtain ⟨kept, hfill, -, -, -, hbegins, hlongest⟩ := fill?_tolerant (List.replicate 3 170) hpayload
  have hkept : kept = ['a', 'b'] := (hlongest (hbegins.2 hcloses)).trans hfit
  subst hkept
  exact ⟨hpayload, hcloses, hfill, hbegins.2 hcloses⟩

/-- Behind a character that was cut a later text is written into the byte that was left. -/
theorem Window.open_cut_lets_text_in :
    let payload : Payload := [⟨[.text "abé", .text "c"], true⟩]
    payload.IsTolerant ∧
      (onto (List.replicate 3 170)).fill? payload = some (⟨[97, 98, 99], 3⟩, .completed) ∧
      ((Message.blank (by decide : 0 < 4)).set .info .zero payload).1.text = "abc" ∧
      payload.texts.flatten = "abéc".toList ∧ ¬"abc".toList <+: "abéc".toList := by
  decide +kernel

end LogRelay
