import LogRelay.Proofs.Json.Grammar
import Mathlib.Algebra.Group.Int.Defs
import Mathlib.Algebra.Group.Nat.Defs

/-!
# The tokens of a text

Every token takes at least one character, so a text has the same tokens however many are allowed beyond its
length. A text of a tree has the tokens that spell the tree, whatever blanks and escapes it uses. One of these
texts is the one that is printed.
-/

namespace LogRelay

/-! ## Digits -/

namespace Digits

theorem toNat_decimal (number : Nat) : toNat (decimal number) = number := by
  have hread := @Nat.ofDigitChars_ten_toDigits number
  rw [Nat.ofDigitChars_eq_foldl] at hread
  exact hread

/-- Only the number zero is written with a zero in front. -/
theorem head?_decimal {number : Nat} (hzero : (decimal number).head? = some '0') :
    decimal number = ['0'] := by
  have hsplit := @Nat.toDigits_eq_if 10 number (by decide)
  by_cases hsmall : number < 10
  · rw [if_pos hsmall] at hsplit
    rw [decimal, hsplit] at hzero ⊢
    rw [Option.some.inj hzero]
  · rw [if_neg hsmall] at hsplit
    have hfront : (decimal (number / 10)).head? = some '0' := by
      rw [decimal, hsplit] at hzero
      rw [decimal]
      cases hdigits : Nat.toDigits 10 (number / 10) with
      | nil => exact absurd hdigits Nat.toDigits_ne_nil
      | cons digit rest =>
          rw [hdigits] at hzero
          exact hzero
    have hnone := toNat_decimal (number / 10)
    rw [head?_decimal hfront] at hnone
    have hzeroDigit : toNat ['0'] = 0 := rfl
    omega
termination_by number

end Digits

namespace Json

/-! ## What a token takes -/

theorem length_scanString (text : List Char) : (scanString text).2.length ≤ text.length := by
  fun_induction scanString text <;> simp [tornString, withGlyph] <;> omega

theorem length_scanExponent (negative : Bool) (whole fraction text : List Char) :
    (scanExponent negative whole fraction text).2.length ≤ text.length := by
  cases text with
  | nil => exact Nat.le_refl _
  | cons mark rest =>
      simp only [scanExponent]
      split
      · generalize hbehind : (if rest.head? = some '+' ∨ rest.head? = some '-' then rest.drop 1
          else rest) = behind
        have hle : behind.length ≤ rest.length := by
          rw [← hbehind]
          split <;> simp
        split
        · exact Nat.zero_le _
        · exact Nat.le_trans (List.dropWhile_suffix _).length_le (Nat.le_succ_of_le hle)
      · exact Nat.le_refl _

theorem length_scanNumber (negative : Bool) (text : List Char) :
    (scanNumber negative text).2.length ≤ (text.dropWhile Char.isDigit).length := by
  simp only [scanNumber]
  split
  · exact Nat.zero_le _
  · split
    · exact Nat.zero_le _
    · split
      · next rest hbehind =>
        rw [hbehind]
        split
        · exact Nat.zero_le _
        · refine Nat.le_trans (length_scanExponent _ _ _ _) ?_
          exact Nat.le_succ_of_le (List.dropWhile_suffix _).length_le
      · exact length_scanExponent _ _ _ _

theorem length_scanWord (token : Token) (letters text : List Char) :
    (scanWord token letters text).2.length ≤ text.length := by
  induction letters generalizing text with
  | nil => exact Nat.le_refl _
  | cons letter letters induction =>
      cases text with
      | nil => exact Nat.le_refl _
      | cons char rest =>
          rw [scanWord]
          split
          · exact Nat.le_succ_of_le (induction rest)
          · exact Nat.zero_le _

theorem length_scanToken (char : Char) (rest : List Char) :
    (scanToken char rest).2.length ≤ rest.length := by
  have hnumber : ∀ negative, (scanNumber negative rest).2.length ≤ rest.length := fun negative =>
    Nat.le_trans (length_scanNumber negative rest) (List.dropWhile_suffix _).length_le
  have hdigits : char.isDigit = true → (scanNumber false (char :: rest)).2.length ≤ rest.length := by
    intro hdigit
    refine Nat.le_trans (length_scanNumber false (char :: rest)) ?_
    rw [List.dropWhile_cons_of_pos hdigit]
    exact (List.dropWhile_suffix _).length_le
  fun_cases scanToken char rest <;>
    first
    | exact Nat.le_refl _
    | exact Nat.zero_le _
    | exact length_scanWord _ _ _
    | exact length_scanString _
    | exact hnumber true
    | exact hdigits ‹_›

/-- Allowing more tokens than there are characters changes nothing. -/
theorem tokensUpTo_eq {limit : Nat} {text : List Char} (hlimit : text.length ≤ limit) :
    tokensUpTo limit text = tokens text := by
  have hall : ∀ limit other text, text.length ≤ limit → text.length ≤ other →
      tokensUpTo limit text = tokensUpTo other text := by
    intro limit
    induction limit with
    | zero =>
        intro other text hzero _
        obtain rfl := List.length_eq_zero_iff.1 (Nat.le_zero.1 hzero)
        cases other <;> rfl
    | succ limit induction =>
        intro other text hlimit hother
        cases other with
        | zero =>
            obtain rfl := List.length_eq_zero_iff.1 (Nat.le_zero.1 hother)
            rfl
        | succ other =>
            have hblank := (List.dropWhile_suffix isBlank (l := text)).length_le
            rw [tokensUpTo, tokensUpTo]
            split
            · rfl
            · next char rest htext =>
              have hscan := length_scanToken char rest
              rw [htext, List.length_cons] at hblank
              simp only
              rw [induction other _ (by omega) (by omega)]
  exact hall limit text.length text hlimit (Nat.le_refl _)

theorem tokens_nil : tokens [] = [] := rfl

theorem tokens_cons {char : Char} (hblank : isBlank char = false) (rest : List Char) :
    tokens (char :: rest) = (scanToken char rest).1 :: tokens (scanToken char rest).2 := by
  have hdrop : (char :: rest).dropWhile isBlank = char :: rest :=
    List.dropWhile_cons_of_neg (by simp [hblank])
  rw [tokens, List.length_cons, tokensUpTo, hdrop]
  simp only
  rw [tokensUpTo_eq (length_scanToken char rest)]

/-! ## Blanks -/

theorem tokens_blanks {blanks : List Char} (hblanks : IsBlanks blanks) (text : List Char) :
    tokens (blanks ++ text) = tokens text := by
  have hlong : text.length ≤ (blanks ++ text).length := by
    rw [List.length_append]
    exact Nat.le_add_left _ _
  have hdrop : (blanks ++ text).dropWhile isBlank = text.dropWhile isBlank :=
    List.dropWhile_append_of_pos hblanks
  rw [← tokensUpTo_eq hlong, tokens]
  cases (blanks ++ text).length with
  | zero => rfl
  | succ limit => rw [tokensUpTo, tokensUpTo, hdrop]

theorem tokens_led {char : Char} {piece chars : List Char} (hled : Led (char :: piece) chars)
    (hblank : isBlank char = false) (rest : List Char) :
    tokens (chars ++ rest) =
      (scanToken char (piece ++ rest)).1 :: tokens (scanToken char (piece ++ rest)).2 := by
  cases hled with
  | blanks hblanks => rw [List.append_assoc, tokens_blanks hblanks, List.cons_append, tokens_cons hblank]

/-! ## Strings -/

theorem hexValue?_eq {value : Nat} {digit : Char} (hdigit : HexDigit value digit) :
    hexValue? digit = some value := by
  obtain hlower | hupper := hdigit
  · obtain ⟨hvalue, rfl⟩ := List.getElem?_eq_some_iff.1 hlower
    revert value
    decide
  · obtain ⟨hvalue, rfl⟩ := List.getElem?_eq_some_iff.1 hupper
    revert value
    decide

theorem scanString_plain {char : Char} (hquote : char ≠ '"') (hslash : char ≠ '\\')
    (hcontrol : ¬char.toNat < 32) (rest : List Char) :
    scanString (char :: rest) = withGlyph (.plain char) (scanString rest) := by
  rw [scanString.eq_def]
  split
  · exact absurd ‹char :: rest = []› (List.cons_ne_nil _ _)
  · exact absurd (List.cons.inj ‹_›).1 hquote
  · exact absurd (List.cons.inj ‹_›).1 hslash
  · exact absurd (List.cons.inj ‹_›).1 hslash
  · exact absurd (List.cons.inj ‹_›).1 hslash
  · exact absurd (List.cons.inj ‹_›).1 hslash
  · next found later _ _ _ _ heq =>
    obtain ⟨rfl, rfl⟩ := List.cons.inj heq
    rw [if_neg hcontrol]

theorem scanString_glyph {glyph : Glyph} {piece : List Char} (hwrites : WritesGlyph glyph piece)
    (rest : List Char) : scanString (piece ++ rest) = withGlyph glyph (scanString rest) := by
  cases hwrites with
  | plain hquote hslash hcontrol => exact scanString_plain hquote hslash (Nat.not_lt.2 hcontrol) rest
  | letter hletter =>
      simp only [letters, List.mem_cons, Prod.mk.injEq, List.not_mem_nil, or_false] at hletter
      rcases hletter with ⟨rfl, rfl⟩ | ⟨rfl, rfl⟩ | ⟨rfl, rfl⟩ | ⟨rfl, rfl⟩ | ⟨rfl, rfl⟩ | ⟨rfl, rfl⟩ |
        ⟨rfl, rfl⟩ | ⟨rfl, rfl⟩ <;> rfl
  | coded hfirst hsecond hthird hfourth =>
      simp only [List.cons_append, List.nil_append]
      rw [scanString, codeUnit?, hexValue?_eq hfirst, hexValue?_eq hsecond, hexValue?_eq hthird,
        hexValue?_eq hfourth]
      rfl

theorem scanString_glyphs {glyphs : List Glyph} {inside : List Char} (hwrites : WritesGlyphs glyphs inside)
    (rest : List Char) : scanString (inside ++ '"' :: rest) = (⟨glyphs, none⟩, rest) := by
  induction hwrites with
  | nil => rfl
  | cons hglyph _ induction =>
      rw [List.append_assoc, scanString_glyph hglyph, induction]
      rfl

theorem tokens_string {glyphs : List Glyph} {inside chars : List Char} (hglyphs : WritesGlyphs glyphs inside)
    (hled : Led ('"' :: (inside ++ ['"'])) chars) (rest : List Char) :
    tokens (chars ++ rest) = .string ⟨glyphs, none⟩ :: tokens rest := by
  have hscan : scanToken '"' (inside ++ ['"'] ++ rest) = (.string ⟨glyphs, none⟩, rest) := by
    change (Token.string (scanString _).1, (scanString _).2) = _
    rw [List.append_assoc, List.singleton_append, scanString_glyphs hglyphs]
  rw [tokens_led hled rfl, hscan]

/-! ## Numbers -/

/-- What does not go on with a number. -/
def StopsNumber (rest : List Char) : Prop :=
  ∀ char ∈ rest.head?, char.isDigit = false ∧ char ≠ '.' ∧ char ≠ 'e' ∧ char ≠ 'E'

theorem stopsNumber_nil : StopsNumber [] := fun _ hchar => absurd hchar (by simp)

theorem stopsNumber_cons {char : Char}
    (hchar : char.isDigit = false ∧ char ≠ '.' ∧ char ≠ 'e' ∧ char ≠ 'E') (rest : List Char) :
    StopsNumber (char :: rest) := by
  intro other hother
  rwa [← Option.some.inj hother]

theorem ne_of_isDigit {char : Char} (hdigit : char.isDigit = true) (other : Char)
    (hother : other.isDigit = false) : char ≠ other := by
  rintro rfl
  exact Bool.false_ne_true (hother.symm.trans hdigit)

theorem isBlank_digit {char : Char} (hdigit : char.isDigit = true) : isBlank char = false := by
  have hne := ne_of_isDigit hdigit
  simp [isBlank, hne ' ' rfl, hne '\t' rfl, hne '\n' rfl, hne '\r' rfl]

theorem scanToken_digit {char : Char} (hdigit : char.isDigit = true) (rest : List Char) :
    scanToken char rest = scanNumber false (char :: rest) := by
  have hne := ne_of_isDigit hdigit
  rw [scanToken, if_neg (hne '[' rfl), if_neg (hne ']' rfl), if_neg (hne _ rfl), if_neg (hne _ rfl),
    if_neg (hne ',' rfl), if_neg (hne ':' rfl), if_neg (hne 'n' rfl), if_neg (hne 't' rfl),
    if_neg (hne 'f' rfl), if_neg (hne '"' rfl), if_neg (hne '-' rfl), if_pos hdigit]

theorem span_digits {digits rest : List Char} (hdigits : ∀ digit ∈ digits, digit.isDigit = true)
    (hrest : ∀ char ∈ rest.head?, char.isDigit = false) :
    (digits ++ rest).takeWhile Char.isDigit = digits ∧ (digits ++ rest).dropWhile Char.isDigit = rest := by
  rw [List.takeWhile_append_of_pos hdigits, List.dropWhile_append_of_pos hdigits]
  cases rest with
  | nil => exact ⟨List.append_nil digits, rfl⟩
  | cons char rest =>
      have hother : ¬char.isDigit = true := by simp [hrest char rfl]
      rw [List.takeWhile_cons_of_neg hother, List.dropWhile_cons_of_neg hother, List.append_nil]
      exact ⟨rfl, rfl⟩

theorem exists_digit {spelled : NumberText} {chars : List Char} (hwrites : WritesUnsigned spelled chars) :
    ∃ digit more, chars = digit :: more ∧ digit.isDigit = true := by
  obtain ⟨minus, whole, fraction, exponent⟩ := spelled
  cases hwrites with
  | parts hwhole _ _ _ =>
      obtain ⟨hsome, hdigits⟩ := hwhole
      cases whole with
      | nil => exact absurd rfl hsome
      | cons digit digits => exact ⟨digit, _, rfl, hdigits digit List.mem_cons_self⟩

section

variable {rest : List Char} (hstop : StopsNumber rest)

include hstop

theorem scanExponent_writes {exponent : Option (Bool × List Char)} {chars : List Char}
    (hexponent : WritesExponent exponent chars) (negative : Bool) (whole fraction : List Char) :
    scanExponent negative whole fraction (chars ++ rest) =
      (.number ⟨negative, whole, fraction, exponent⟩, rest) := by
  cases hexponent with
  | none =>
      cases rest with
      | nil => rfl
      | cons char rest =>
          obtain ⟨-, -, hlower, hupper⟩ := hstop char rfl
          simp [scanExponent, hlower, hupper]
  | @some mark minus sign digits hmark hsign hdigits =>
      obtain ⟨hsome, hdigits⟩ := hdigits
      obtain ⟨htake, hdrop⟩ := span_digits hdigits fun char hchar => (hstop char hchar).1
      cases hsign with
      | none =>
          cases digits with
          | nil => exact absurd rfl hsome
          | cons digit digits =>
              have hne := ne_of_isDigit (hdigits digit List.mem_cons_self)
              rw [List.cons_append] at htake hdrop
              simp [scanExponent, hmark, hne '+' rfl, hne '-' rfl, htake, hdrop]
      | plus => simp [scanExponent, hmark, htake, hdrop, hsome]
      | minus => simp [scanExponent, hmark, htake, hdrop, hsome]

theorem stopsNumber_exponent {exponent : Option (Bool × List Char)} {chars : List Char}
    (hexponent : WritesExponent exponent chars) :
    ∀ char ∈ (chars ++ rest).head?, char.isDigit = false ∧ char ≠ '.' := by
  cases hexponent with
  | none => exact fun char hchar => ⟨(hstop char hchar).1, (hstop char hchar).2.1⟩
  | some hmark _ _ =>
      rintro char ⟨⟩
      rcases hmark with rfl | rfl
      · exact ⟨rfl, by decide⟩
      · exact ⟨rfl, by decide⟩

/-- A number without its sign is scanned in full. -/
theorem scanNumber_writes {spelled : NumberText} {chars : List Char}
    (hwrites : WritesUnsigned spelled chars) (negative : Bool) :
    scanNumber negative (chars ++ rest) =
      (.number ⟨negative, spelled.whole, spelled.fraction, spelled.exponent⟩, rest) := by
  obtain ⟨minus, whole, fraction, exponent⟩ := spelled
  cases hwrites with
  | @parts _ chars hwhole hzero hfraction hexponent =>
      obtain ⟨hsome, hdigits⟩ := hwhole
      have hlead : ¬(whole.head? = some '0' ∧ whole ≠ ['0']) := fun hboth => hboth.2 (hzero hboth.1)
      have hbehind := stopsNumber_exponent hstop hexponent
      have hscan := scanExponent_writes hstop hexponent negative whole fraction
      cases hfraction with
      | none =>
          obtain ⟨htake, hdrop⟩ := span_digits hdigits fun char hchar => (hbehind char hchar).1
          simp only [List.append_assoc, List.nil_append, scanNumber, htake, hdrop, if_neg hsome, if_neg hlead]
          split
          · next later hpoint => exact absurd rfl (hbehind '.' (by rw [hpoint]; rfl)).2
          · exact hscan
      | some hfraction =>
          obtain ⟨hpart, hparts⟩ := hfraction
          obtain ⟨htake, hdrop⟩ := @span_digits whole ('.' :: (fraction ++ (chars ++ rest))) hdigits
            fun char hchar => Option.some.inj hchar ▸ rfl
          obtain ⟨htakePart, hdropPart⟩ := span_digits hparts fun char hchar => (hbehind char hchar).1
          simp only [List.append_assoc, List.cons_append, scanNumber, htake, hdrop, htakePart, hdropPart,
            if_neg hsome, if_neg hlead, if_neg hpart]
          exact hscan

theorem tokens_number {spelled : NumberText} {piece chars : List Char} (hpiece : WritesNumber spelled piece)
    (hled : Led piece chars) : tokens (chars ++ rest) = .number spelled :: tokens rest := by
  obtain ⟨minus, whole, fraction, exponent⟩ := spelled
  cases hpiece with
  | positive hsign hunsigned =>
      obtain rfl : minus = false := hsign
      obtain ⟨digit, more, rfl, hdigit⟩ := exists_digit hunsigned
      rw [tokens_led hled (isBlank_digit hdigit), scanToken_digit hdigit, ← List.cons_append,
        scanNumber_writes hstop hunsigned]
  | negative hsign hunsigned =>
      obtain rfl : minus = true := hsign
      have hscan : ∀ text, scanToken '-' text = scanNumber true text := fun text => rfl
      rw [tokens_led hled rfl, hscan, scanNumber_writes hstop hunsigned]

end

/-! ## Trees -/

namespace Tree

/-- The tokens that a complete tree spells; of items and members, those between the brackets, with a comma in
front of every one if `following` holds and of every one but the first otherwise. -/
def spelled : {layer : Layer} → (following : Bool) → Tree layer → List Token
  | _, _, .null => [.null]
  | _, _, .bool value => [.bool value]
  | _, _, .number text => [.number text]
  | _, _, .string text => [.string text]
  | _, _, .array items => .openArray :: spelled false items ++ [.closeArray]
  | _, _, .object members => .openObject :: spelled false members ++ [.closeObject]
  | _, following, .item value rest =>
      (if following then [.comma] else []) ++ spelled false value ++ spelled true rest
  | _, following, .member name value rest =>
      (if following then [.comma] else []) ++ .string name :: .colon :: spelled false value ++
        spelled true rest
  | _, _, _ => []

end Tree

theorem stopsNumber_blanks {blanks rest : List Char} (hblanks : IsBlanks blanks) (hstop : StopsNumber rest) :
    StopsNumber (blanks ++ rest) := by
  cases blanks with
  | nil => exact hstop
  | cons blank blanks =>
      have hblank := hblanks blank List.mem_cons_self
      simp only [isBlank, Bool.or_eq_true, decide_eq_true_eq] at hblank
      refine stopsNumber_cons ?_ _
      rcases hblank with ((rfl | rfl) | rfl) | rfl <;> decide

theorem stopsNumber_led {char : Char} {piece chars : List Char} (hled : Led (char :: piece) chars)
    (hchar : char.isDigit = false ∧ char ≠ '.' ∧ char ≠ 'e' ∧ char ≠ 'E') (rest : List Char) :
    StopsNumber (chars ++ rest) := by
  cases hled with
  | blanks hblanks =>
      rw [List.append_assoc]
      exact stopsNumber_blanks hblanks (stopsNumber_cons hchar _)

theorem stopsNumber_writes {layer : Layer} {tree : Tree layer} {chars : List Char}
    (hwrites : tree.Writes true chars) (hlayer : layer ≠ .value) {rest : List Char}
    (hstop : StopsNumber rest) : StopsNumber (chars ++ rest) := by
  cases hwrites with
  | noItems | noMembers => exact hstop
  | item hcomma _ _ =>
      cases hcomma with
      | later hcomma =>
          rw [List.append_assoc]
          exact stopsNumber_led hcomma (by decide) _
  | member hcomma _ _ _ _ _ =>
      cases hcomma with
      | later hcomma =>
          rw [List.append_assoc]
          exact stopsNumber_led hcomma (by decide) _
  | _ => exact absurd rfl hlayer

theorem tokens_separates {following : Bool} {comma : List Char} (hcomma : Separates following comma)
    (rest : List Char) : tokens (comma ++ rest) = (if following then [.comma] else []) ++ tokens rest := by
  cases hcomma with
  | first => rfl
  | later hcomma => exact tokens_led hcomma rfl rest

/-- A text of a tree has the tokens that spell the tree. -/
theorem tokens_writes {layer : Layer} {following : Bool} {tree : Tree layer} {chars : List Char}
    (hwrites : tree.Writes following chars) {rest : List Char} (hstop : StopsNumber rest) :
    tokens (chars ++ rest) = tree.spelled following ++ tokens rest := by
  induction hwrites generalizing rest with
  | null hled => exact tokens_led hled rfl rest
  | @bool following value chars hled => cases value <;> exact tokens_led hled rfl rest
  | number hpiece hled => exact tokens_number hstop hpiece hled
  | string hglyphs hled => exact tokens_string hglyphs hled rest
  | @array following items front inside back hopen _ hclose induction =>
      have hfront := fun text => tokens_led hopen rfl (inside ++ (back ++ text))
      have hback : tokens (back ++ rest) = .closeArray :: tokens rest := tokens_led hclose rfl rest
      simp only [List.append_assoc, Tree.spelled, List.cons_append, List.nil_append]
      rw [hfront, ← hback, ← induction (stopsNumber_led hclose (by decide) rest)]
      rfl
  | @object following members front inside back hopen _ hclose induction =>
      have hfront := fun text => tokens_led hopen rfl (inside ++ (back ++ text))
      have hback : tokens (back ++ rest) = .closeObject :: tokens rest := tokens_led hclose rfl rest
      simp only [List.append_assoc, Tree.spelled, List.cons_append, List.nil_append]
      rw [hfront, ← hback, ← induction (stopsNumber_led hclose (by decide) rest)]
      rfl
  | noItems | noMembers => rfl
  | item hcomma _ hrest value_induction rest_induction =>
      simp only [List.append_assoc, Tree.spelled, tokens_separates hcomma]
      rw [value_induction (stopsNumber_writes hrest (by simp) hstop), rest_induction hstop]
  | @member _ glyphs value members comma _ name colon chars behind hcomma hglyphs hled hcolon _ hrest
      value_induction rest_induction =>
      have hcolon : ∀ text, tokens (colon ++ text) = .colon :: tokens text := tokens_led hcolon rfl
      simp only [List.append_assoc, Tree.spelled, tokens_separates hcomma, tokens_string hglyphs hled, hcolon,
        List.cons_append]
      rw [value_induction (stopsNumber_writes hrest (by simp) hstop), rest_induction hstop]

/-! ## Printed values -/

/-- How a character is spelled inside a printed string: control characters without a letter of their own by
their code. -/
def glyph (char : Char) : Glyph :=
  if char = '\x08' ∨ char = '\x0c' ∨ char = '\n' ∨ char = '\r' ∨ char = '\t' then .plain char
  else if char.toNat < 32 then .coded char.toNat
  else .plain char

/-- A text as it is spelled in a printed string. -/
def StringText.ofText (text : String) : StringText := ⟨text.toList.map glyph, none⟩

/-- How a number is spelled when it is printed. Only whole numbers have a spelling of this kind. -/
def NumberText.ofNumber : Number → NumberText
  | .whole value => ⟨value < 0, Digits.decimal value.natAbs, [], none⟩
  | .double _ => ⟨false, [], [], none⟩

/-- Whether every number is a whole one of at most 64 bits, with or without a sign. -/
def fits : {layer : Layer} → Json layer → Bool
  | _, .number (.whole value) => -2 ^ 63 ≤ value && value < 2 ^ 64
  | _, .number (.double _) => false
  | _, .array items => fits items
  | _, .object members => fits members
  | _, .item value rest | _, .member _ value rest => fits value && fits rest
  | _, _ => true

/-- The tokens of a printed value; of items and members, those between the brackets, with a comma in front of
every one if `following` holds and of every one but the first otherwise. -/
def spell : {layer : Layer} → (following : Bool) → Json layer → List Token
  | _, _, .null => [.null]
  | _, _, .bool value => [.bool value]
  | _, _, .number value => [.number (.ofNumber value)]
  | _, _, .string text => [.string (.ofText text)]
  | _, _, .array items => .openArray :: spell false items ++ [.closeArray]
  | _, _, .object members => .openObject :: spell false members ++ [.closeObject]
  | _, _, .noItems => []
  | _, following, .item value rest =>
      (if following then [.comma] else []) ++ spell false value ++ spell true rest
  | _, _, .noMembers => []
  | _, following, .member name value rest =>
      (if following then [.comma] else []) ++ .string (.ofText name) :: .colon :: spell false value ++
        spell true rest

/-- The tree of a value that is printed. -/
def tree : {layer : Layer} → Json layer → Tree layer
  | _, .null => .null
  | _, .bool value => .bool value
  | _, .number value => .number (.ofNumber value)
  | _, .string text => .string (.ofText text)
  | _, .array items => .array (tree items)
  | _, .object members => .object (tree members)
  | _, .noItems => .noItems
  | _, .item value rest => .item (tree value) (tree rest)
  | _, .noMembers => .noMembers
  | _, .member name value rest => .member (.ofText name) (tree value) (tree rest)

theorem spelled_tree {layer : Layer} (following : Bool) (json : Json layer) :
    (tree json).spelled following = spell following json := by
  induction json generalizing following with
  | null | bool _ | number _ | string _ | noItems | noMembers => rfl
  | array parts induction | object parts induction => simp only [tree, Tree.spelled, spell, induction]
  | item value rest value_induction rest_induction | member name value rest value_induction rest_induction =>
      simp only [tree, Tree.spelled, spell, value_induction, rest_induction]

theorem hexDigit_lower {value : Nat} (hvalue : value < 16) : HexDigit value (hexDigit value) := by
  refine .inl ?_
  revert value
  decide

theorem writesGlyph_escape (char : Char) : WritesGlyph (glyph char) (escape char) := by
  by_cases hletter : char = '"' ∨ char = '\\' ∨ char = '\x08' ∨ char = '\x0c' ∨ char = '\n' ∨
      char = '\r' ∨ char = '\t'
  · rcases hletter with rfl | rfl | rfl | rfl | rfl | rfl | rfl <;> exact .letter (by decide)
  · simp only [not_or] at hletter
    obtain ⟨hquote, hslash, hback, hfeed, hline, hreturn, htab⟩ := hletter
    have hspecial : ¬(char = '\x08' ∨ char = '\x0c' ∨ char = '\n' ∨ char = '\r' ∨ char = '\t') := by
      simp [hback, hfeed, hline, hreturn, htab]
    rw [escape, glyph, if_neg hquote, if_neg hslash, if_neg hback, if_neg hfeed, if_neg hline,
      if_neg hreturn, if_neg htab, if_neg hspecial]
    by_cases hcontrol : char.toNat < 32
    · have hzero : HexDigit 0 '0' := .inl rfl
      have hcoded := WritesGlyph.coded hzero hzero (@hexDigit_lower (char.toNat / 16) (by omega))
        (@hexDigit_lower (char.toNat % 16) (by omega))
      have hcode : ((0 * 16 + 0) * 16 + char.toNat / 16) * 16 + char.toNat % 16 = char.toNat := by omega
      rw [hcode] at hcoded
      rw [if_pos hcontrol, if_pos hcontrol]
      exact hcoded
    · rw [if_neg hcontrol, if_neg hcontrol]
      exact .plain hquote hslash (Nat.not_lt.1 hcontrol)

theorem writesGlyphs_escape (chars : List Char) : WritesGlyphs (chars.map glyph) (chars.flatMap escape) := by
  induction chars with
  | nil => exact .nil
  | cons char chars induction => exact .cons (writesGlyph_escape char) induction

theorem writesUnsigned_decimal (negative : Bool) (number : Nat) :
    WritesUnsigned ⟨negative, Digits.decimal number, [], none⟩ (Digits.decimal number) := by
  have hwhole : IsDigits (Digits.decimal number) :=
    ⟨Nat.toDigits_ne_nil, fun digit => Digits.isDigit_of_mem_decimal⟩
  have hparts := @WritesUnsigned.parts ⟨negative, Digits.decimal number, [], none⟩ [] [] hwhole
    Digits.head?_decimal .none .none
  rwa [List.append_nil, List.append_nil] at hparts

theorem writesNumber_print {value : Number} (hfits : fits (.number value) = true) :
    WritesNumber (.ofNumber value) value.print := by
  cases value with
  | double bits => exact absurd hfits Bool.false_ne_true
  | whole value =>
      rw [Number.print]
      by_cases hnegative : value < 0
      · rw [if_pos hnegative]
        exact .negative (decide_eq_true hnegative) (writesUnsigned_decimal _ _)
      · rw [if_neg hnegative]
        exact .positive (decide_eq_false hnegative) (writesUnsigned_decimal _ _)

theorem led_self (piece : List Char) : Led piece piece :=
  @Led.blanks piece [] fun _ hchar => absurd hchar List.not_mem_nil

theorem separates_print (following : Bool) : Separates following (if following then [','] else []) := by
  cases following with
  | false => exact .first
  | true => exact .later (led_self _)

/-- What is printed is a text of the tree of the value. -/
theorem writes_print {layer : Layer} (following : Bool) {json : Json layer} (hfits : json.fits = true) :
    (tree json).Writes following (printFrom following json) := by
  induction json generalizing following with
  | null => exact .null (led_self _)
  | bool value => cases value <;> exact .bool (led_self _)
  | number value => exact .number (writesNumber_print hfits) (led_self _)
  | string text => exact .string (writesGlyphs_escape _) (led_self _)
  | array items induction => exact .array (led_self _) (induction false hfits) (led_self _)
  | object members induction => exact .object (led_self _) (induction false hfits) (led_self _)
  | noItems => exact .noItems
  | noMembers => exact .noMembers
  | item value rest value_induction rest_induction =>
      obtain ⟨hvalue, hrest⟩ := Bool.and_eq_true_iff.1 hfits
      rw [printFrom, List.append_assoc]
      exact .item (separates_print following) (value_induction false hvalue) (rest_induction true hrest)
  | member name value rest value_induction rest_induction =>
      obtain ⟨hvalue, hrest⟩ := Bool.and_eq_true_iff.1 hfits
      rw [printFrom, List.append_assoc, List.append_assoc, List.cons_append]
      exact .member (separates_print following) (writesGlyphs_escape _) (led_self _) (led_self _)
        (value_induction false hvalue) (rest_induction true hrest)

theorem tokens_printFrom {layer : Layer} (following : Bool) (json : Json layer)
    (hfits : json.fits = true) {rest : List Char} (hstop : StopsNumber rest) :
    tokens (printFrom following json ++ rest) = spell following json ++ tokens rest := by
  rw [tokens_writes (writes_print following hfits) hstop, spelled_tree]

end Json

end LogRelay
