import LogRelay.Text.Utf8

/-!
# The order of texts is the order of their bytes

If a text comes before another one, character by character, so do its bytes: the first byte of a character
grows with the number of bytes that the character takes, and all of them hold digits of its code, the most
significant first.
-/

namespace LogRelay.Utf8

theorem lt_digits {number other : Nat} (hlt : number < other) :
    number / 64 < other / 64 ∨ number / 64 = other / 64 ∧ number % 64 < other % 64 := by
  omega

theorem cons_ofNat_lt_iff {first other : Nat} (hfirst : first < 256) (hother : other < 256)
    {rest behind : Bytes} :
    UInt8.ofNat first :: rest < UInt8.ofNat other :: behind ↔
      first < other ∨ first = other ∧ rest < behind := by
  rw [List.cons_lt_cons_iff, UInt8.lt_iff_toNat_lt, ← UInt8.toNat_inj, UInt8.toNat_ofNat',
    UInt8.toNat_ofNat', Nat.mod_eq_of_lt hfirst, Nat.mod_eq_of_lt hother]

/-- The bytes of a character come before those of a greater one, whatever stands behind them. -/
theorem encodeChar_append_lt {left right : Char} (hlt : left < right) (front back : Bytes) :
    String.utf8EncodeChar left ++ front < String.utf8EncodeChar right ++ back := by
  have hcodes : left.val.toNat < right.val.toNat := hlt
  have hgreatest : right.val.toNat < 0x110000 := by
    have hvalid := right.valid
    simp only [UInt32.isValidChar, Nat.isValidChar] at hvalid
    omega
  have htwo : ∀ number : Nat, number / 4096 = number / 64 / 64 := fun number =>
    (Nat.div_div_eq_div_mul number 64 64).symm
  have hthree : ∀ number : Nat, number / 262144 = number / 64 / 64 / 64 := fun number => by
    rw [← htwo, Nat.div_div_eq_div_mul]
  rw [String.utf8EncodeChar, String.utf8EncodeChar]
  generalize left.val.toNat = code at *
  generalize right.val.toNat = other at *
  simp only [htwo, hthree]
  repeat' split
  all_goals
    simp only [List.cons_append, List.nil_append]
    simp (disch := omega) only [cons_ofNat_lt_iff]
  all_goals
    rcases lt_digits hcodes with hfront | ⟨hfront, hlast⟩
    · rcases lt_digits hfront with hfirst | ⟨hfirst, hsecond⟩
      · omega
      · omega
    · omega

theorem encode_lt {left right : List Char} (hlt : left < right) : encode left < encode right := by
  induction hlt with
  | @nil char rest =>
      obtain ⟨first, others, hchar⟩ : ∃ first others, String.utf8EncodeChar char = first :: others :=
        List.exists_cons_of_ne_nil String.utf8EncodeChar_ne_nil
      rw [encode_nil, encode_cons, hchar]
      exact List.nil_lt_cons _ _
  | rel hfirst => exact encodeChar_append_lt hfirst _ _
  | cons _ induction => exact List.append_left_lt induction

theorem bytes_lt {left right : String} (hlt : left < right) : bytes left < bytes right := encode_lt hlt

end LogRelay.Utf8
