import LogRelay.Proofs.Text.Decoding
import LogRelay.Window

/-!
# Where characters end

The boundaries in the bytes of a text are the ends of its beginnings. The last one at or before an index is
the end of the part of the text that fits there.
-/

namespace LogRelay.Utf8

/-- Only the first byte of a character does not continue one. -/
theorem encodeChar_eq_cons (char : Char) :
    ∃ first rest, String.utf8EncodeChar char = first :: rest ∧ isContinuation first = false ∧
      ∀ byte ∈ rest, isContinuation byte = true := by
  have h128 : (128 : UInt8).toNat = 128 := rfl
  have h192 : (192 : UInt8).toNat = 192 := rfl
  have hbegins : ∀ value, value < 128 ∨ 192 ≤ value → value < 256 →
      isContinuation (UInt8.ofNat value) = false := by
    intro value hvalue hlt
    simp only [isContinuation, Bool.and_eq_false_iff, decide_eq_false_iff_not,
      UInt8.le_iff_toNat_le, UInt8.lt_iff_toNat_lt, UInt8.toNat_ofNat']
    omega
  have hcontinue : ∀ values : List Nat,
      ∀ byte ∈ values.map fun value => UInt8.ofNat (value % 64 + 128),
        isContinuation byte = true := by
    intro values byte hbyte
    obtain ⟨value, -, rfl⟩ := List.mem_map.1 hbyte
    simp only [isContinuation, Bool.and_eq_true, decide_eq_true_eq, UInt8.le_iff_toNat_le,
      UInt8.lt_iff_toNat_lt, UInt8.toNat_ofNat']
    omega
  let code := char.val.toNat
  rw [String.utf8EncodeChar]
  split
  · exact ⟨_, _, rfl, hbegins _ (by omega) (by omega), hcontinue []⟩
  split
  · exact ⟨_, _, rfl, hbegins _ (by omega) (by omega), hcontinue [code]⟩
  split
  · exact ⟨_, _, rfl, hbegins _ (by omega) (by omega), hcontinue [code / 64, code]⟩
  · exact ⟨_, _, rfl, hbegins _ (by omega) (by omega), hcontinue [code / 4096, code / 64, code]⟩

@[simp]
theorem isBoundary_zero (bytes : Bytes) : isBoundary bytes 0 = true := by simp [isBoundary]

/-- Within a character there is no boundary. -/
theorem isBoundary_of_lt {char : Char} {rest : Bytes} {index : Nat} (hpos : 0 < index)
    (hlt : index < char.utf8Size) :
    isBoundary (String.utf8EncodeChar char ++ rest) index = false := by
  obtain ⟨first, others, hchar, -, hothers⟩ := encodeChar_eq_cons char
  have hlength : others.length + 1 = char.utf8Size := by
    rw [← String.length_utf8EncodeChar, hchar, List.length_cons]
  obtain ⟨before, rfl⟩ := Nat.exists_eq_succ_of_ne_zero (Nat.ne_of_gt hpos)
  have hbefore : before < others.length := by omega
  have hbyte : (first :: others ++ rest)[before + 1]? = some others[before] := by
    rw [List.cons_append, List.getElem?_cons_succ, List.getElem?_append_left hbefore,
      List.getElem?_eq_getElem hbefore]
  rw [hchar, isBoundary, hbyte]
  simp only [hothers _ (List.getElem_mem hbefore)]
  simp
  omega

/-- Behind a character the boundaries are those of the rest. -/
theorem isBoundary_add (char : Char) (rest : List Char) (index : Nat) :
    isBoundary (encode (char :: rest)) (char.utf8Size + index) = isBoundary (encode rest) index := by
  have hsize := char.utf8Size_pos
  have hlength := String.length_utf8EncodeChar (c := char)
  have hbyte : (encode (char :: rest))[char.utf8Size + index]? = (encode rest)[index]? := by
    rw [encode_cons, List.getElem?_append_right (by omega), hlength, Nat.add_sub_cancel_left]
  rcases Nat.eq_zero_or_pos index with rfl | hpos
  · rw [isBoundary_zero, isBoundary, hbyte]
    cases rest with
    | nil => simp [hlength]
    | cons next others =>
        obtain ⟨first, bytes, hnext, hfirst, -⟩ := encodeChar_eq_cons next
        simp [hnext, hfirst]
  · rw [isBoundary, isBoundary, hbyte]
    have hzero : (char.utf8Size + index = 0) ↔ (index = 0) := by omega
    have hend : (char.utf8Size + index = (encode (char :: rest)).length) ↔
        (index = (encode rest).length) := by
      rw [encode_cons, List.length_append, hlength]
      omega
    simp only [hzero, hend]

/-- The boundaries of a text are the ends of its beginnings. -/
theorem isBoundary_iff {chars : List Char} {index : Nat} :
    isBoundary (encode chars) index = true ↔ ∃ front, front <+: chars ∧ size front = index := by
  induction chars generalizing index with
  | nil =>
      constructor
      · intro hboundary
        cases index with
        | zero => exact ⟨[], List.prefix_refl _, rfl⟩
        | succ index => exact absurd hboundary (by simp [isBoundary])
      · rintro ⟨front, hfront, rfl⟩
        obtain rfl := List.prefix_nil.1 hfront
        exact isBoundary_zero _
  | cons char rest induction =>
      constructor
      · intro hboundary
        rcases Nat.eq_zero_or_pos index with rfl | hpos
        · exact ⟨[], List.nil_prefix, rfl⟩
        · have hge : char.utf8Size ≤ index := by
            refine Nat.le_of_not_lt fun hlt => ?_
            rw [encode_cons, isBoundary_of_lt hpos hlt] at hboundary
            exact Bool.noConfusion hboundary
          obtain ⟨more, rfl⟩ := Nat.exists_eq_add_of_le hge
          rw [isBoundary_add, induction] at hboundary
          obtain ⟨front, hfront, rfl⟩ := hboundary
          exact ⟨char :: front, (List.prefix_cons_inj char).2 hfront, rfl⟩
      · rintro ⟨front, hfront, rfl⟩
        cases front with
        | nil => simp [size]
        | cons first others =>
            obtain ⟨rfl, hothers⟩ := List.cons_prefix_cons.1 hfront
            rw [size, isBoundary_add, induction]
            exact ⟨others, hothers, rfl⟩

theorem fit_size {front chars : List Char} (hfront : front <+: chars) :
    fit (size front) chars = front := by
  obtain ⟨rest, rfl⟩ := hfront
  rw [fit_append_of_le (Nat.le_refl _), Nat.sub_self]
  cases rest with
  | nil => simp [fit]
  | cons char rest =>
      have hpos := char.utf8Size_pos
      rw [fit, if_neg (by omega), List.append_nil]

/-- The last boundary at or before an index in a text is the end of the part that fits. -/
theorem lastBoundary?_encode (chars : List Char) (index : Nat) :
    index ≤ size chars → lastBoundary? (encode chars) index = some (size (fit index chars)) := by
  induction index with
  | zero =>
      intro _
      have hfit : size (fit 0 chars) = 0 := Nat.le_zero.1 (size_fit_le 0 chars)
      simp [lastBoundary?, hfit]
  | succ index induction =>
      intro hindex
      rw [lastBoundary?]
      split
      · next hboundary =>
        obtain ⟨front, hfront, hsize⟩ := isBoundary_iff.1 hboundary
        have hfit : fit (index + 1) chars = front := by
          rw [← show size front = index + 1 from hsize, fit_size hfront]
        rw [hfit, hsize]
      · next hinside =>
        have hne : size (fit (index + 1) chars) ≠ index + 1 := fun hsize =>
          hinside (isBoundary_iff.2 ⟨_, fit_isPrefix _ _, hsize⟩)
        have hle := size_fit_le (index + 1) chars
        have hsame : fit (index + 1) chars = fit index chars := by
          apply (isPrefix_fit (fit_isPrefix _ _) (by omega)).eq_of_length_le
          have hshort := isPrefix_fit (fit_isPrefix index chars)
            (Nat.le_trans (size_fit_le index chars) (Nat.le_succ index))
          exact hshort.length_le
        rw [induction (by omega), hsame]

theorem take_encode_of_isPrefix {front chars : List Char} (hfront : front <+: chars) :
    (encode chars).take (size front) = encode front := by
  obtain ⟨rest, rfl⟩ := hfront
  rw [encode_append, ← length_encode, List.take_left]

end LogRelay.Utf8
