import LogRelay.Proofs.Json.Whole
import Mathlib.Data.List.TakeWhile
import Mathlib.Tactic.IntervalCases

/-!
# Accepted texts follow the grammar

A text that is arranged into a whole tree is a text of the value that the tree holds: what the scanner takes for
a token is written as the grammar says. Conversely, every text of a value is arranged into a tree that holds it.
-/

namespace LogRelay.Json

/-! ## Characters of glyphs -/

theorem hexDigit_lt {value : Nat} {digit : Char} (hdigit : HexDigit value digit) : value < 16 := by
  obtain hlower | hupper := hdigit
  · exact (List.getElem?_eq_some_iff.1 hlower).1
  · exact (List.getElem?_eq_some_iff.1 hupper).1

theorem coded_lt {unit : Nat} {piece : List Char} (hwrites : WritesGlyph (.coded unit) piece) :
    unit < 0x10000 := by
  cases hwrites with
  | coded hfirst hsecond hthird hfourth =>
      have hfirst := hexDigit_lt hfirst
      have hsecond := hexDigit_lt hsecond
      have hthird := hexDigit_lt hthird
      have hfourth := hexDigit_lt hfourth
      omega

theorem toNat_ofNat {code : Nat} (hvalid : code.isValidChar) : (Char.ofNat code).toNat = code := by
  rw [Char.ofNat, dif_pos hvalid]
  rfl

/-- Glyphs that are written and have no unpaired code unit make up characters. -/
theorem exists_makesUp {glyphs : List Glyph} {inside : List Char} (hwrites : WritesGlyphs glyphs inside)
    (hpaired : isPaired glyphs = true) : ∃ chars, MakesUp glyphs chars := by
  fun_induction isPaired glyphs generalizing inside with
  | case1 => exact ⟨[], .nil⟩
  | case2 char rest induction =>
      cases hwrites with
      | cons _ hrest =>
          obtain ⟨chars, hchars⟩ := induction hrest hpaired
          exact ⟨char :: chars, .plain hchars⟩
  | case3 unit rest hlow => exact absurd hpaired Bool.false_ne_true
  | case4 unit hlow hhigh low later induction =>
      obtain ⟨hsecond, hpaired⟩ := Bool.and_eq_true_iff.1 hpaired
      cases hwrites with
      | cons _ hrest =>
          cases hrest with
          | cons _ hlater =>
              obtain ⟨chars, hchars⟩ := induction hlater hpaired
              simp only [isHighUnit, isLowUnit, Bool.and_eq_true, decide_eq_true_eq] at hhigh hsecond
              have hvalid : (0x10000 + (unit - 0xd800) * 1024 + (low - 0xdc00)).isValidChar :=
                .inr ⟨by omega, by omega⟩
              have hpair := @MakesUp.pair (Char.ofNat (0x10000 + (unit - 0xd800) * 1024 + (low - 0xdc00)))
                (unit - 0xd800) (low - 0xdc00) _ _ (by omega) (by omega)
                (toNat_ofNat hvalid) hchars
              rw [Nat.add_sub_cancel' (by omega), Nat.add_sub_cancel' (by omega)] at hpair
              exact ⟨_, hpair⟩
  | case5 unit rest hlow hhigh hunpaired => exact absurd hpaired Bool.false_ne_true
  | case6 unit rest hlow hhigh induction =>
      cases hwrites with
      | cons hglyph hrest =>
          obtain ⟨chars, hchars⟩ := induction hrest hpaired
          have hunit := coded_lt hglyph
          have hvalid : unit.isValidChar := by
            simp only [isLowUnit, isHighUnit, Bool.and_eq_true, decide_eq_true_eq] at hlow hhigh
            rw [Nat.isValidChar]
            omega
          have hcode : (Char.ofNat unit).toNat = unit := toNat_ofNat hvalid
          have hcoded := @MakesUp.coded (Char.ofNat unit) _ _ hchars
          rw [hcode] at hcoded
          exact ⟨_, hcoded⟩

/-! ## Strings that are scanned -/

theorem hexDigit_of_hexValue? {digit : Char} {value : Nat} (hvalue : hexValue? digit = some value) :
    HexDigit value digit := by
  have hdigit : digit = Char.ofNat digit.toNat := digit.ofNat_toNat.symm
  rw [hexValue?] at hvalue
  split at hvalue
  · next hrange =>
    have hleast : 48 ≤ digit.toNat := hrange.1
    have hmost : digit.toNat ≤ 57 := hrange.2
    obtain rfl := Option.some.inj hvalue
    rw [hdigit]
    generalize digit.toNat = code at *
    interval_cases code <;> exact .inl rfl
  · split at hvalue
    · next hrange =>
      have hleast : 97 ≤ digit.toNat := hrange.1
      have hmost : digit.toNat ≤ 102 := hrange.2
      obtain rfl := Option.some.inj hvalue
      rw [hdigit]
      generalize digit.toNat = code at *
      interval_cases code <;> exact .inl rfl
    · split at hvalue
      · next hrange =>
        have hleast : 65 ≤ digit.toNat := hrange.1
        have hmost : digit.toNat ≤ 70 := hrange.2
        obtain rfl := Option.some.inj hvalue
        rw [hdigit]
        generalize digit.toNat = code at *
        interval_cases code <;> exact .inr rfl
      · exact absurd hvalue (by simp)

theorem mem_letters {letter char : Char} (hletter : unescape? letter = some char) :
    (letter, char) ∈ letters := by
  rw [unescape?] at hletter
  repeat' split at hletter
  all_goals simp only [Option.some.injEq, reduceCtorEq] at hletter
  all_goals
    subst hletter
    simp [letters, *]

theorem writesGlyph_coded {a b c d : Char} {unit : Nat} (hunit : codeUnit? a b c d = some unit) :
    WritesGlyph (.coded unit) ['\\', 'u', a, b, c, d] := by
  simp only [codeUnit?, Option.bind_eq_bind, Option.bind_eq_some_iff] at hunit
  obtain ⟨first, hfirst, second, hsecond, third, hthird, fourth, hfourth, hunit⟩ := hunit
  obtain rfl := Option.some.inj hunit
  exact .coded (hexDigit_of_hexValue? hfirst) (hexDigit_of_hexValue? hsecond) (hexDigit_of_hexValue? hthird)
    (hexDigit_of_hexValue? hfourth)

theorem writesGlyphs_of_withGlyph {glyph : Glyph} {piece later rest : List Char} {glyphs : List Glyph}
    (hglyph : WritesGlyph glyph piece) (hscan : withGlyph glyph (scanString later) = (⟨glyphs, none⟩, rest))
    (hlater : ∀ {behind}, scanString later = (⟨behind, none⟩, rest) →
      ∃ inside, later = inside ++ '"' :: rest ∧ WritesGlyphs behind inside) :
    ∃ inside, piece ++ later = inside ++ '"' :: rest ∧ WritesGlyphs glyphs inside := by
  generalize hbehind : scanString later = scanned at hscan
  obtain ⟨⟨behind, fault⟩, text⟩ := scanned
  obtain ⟨hspelled, rfl⟩ := Prod.mk.inj hscan
  obtain ⟨rfl, rfl⟩ := StringText.mk.inj hspelled
  obtain ⟨inside, rfl, hinside⟩ := hlater hbehind
  exact ⟨piece ++ inside, (List.append_assoc _ _ _).symm, .cons hglyph hinside⟩

/-- What is scanned for a string up to its closing quote is written as its glyphs. -/
theorem writesGlyphs_of_scanString {text : List Char} {glyphs : List Glyph} {rest : List Char}
    (hscan : scanString text = (⟨glyphs, none⟩, rest)) :
    ∃ inside, text = inside ++ '"' :: rest ∧ WritesGlyphs glyphs inside := by
  fun_induction scanString text generalizing glyphs with
  | case1 | case4 | case5 | case7 | case8 | case9 => simp [tornString] at hscan
  | case2 later =>
      obtain ⟨hspelled, rfl⟩ := Prod.mk.inj hscan
      obtain ⟨rfl, -⟩ := StringText.mk.inj hspelled
      exact ⟨[], rfl, .nil⟩
  | case3 a b c d later unit hunit induction =>
      exact writesGlyphs_of_withGlyph (writesGlyph_coded hunit) hscan induction
  | case6 letter later _ _ char hletter induction =>
      exact writesGlyphs_of_withGlyph (.letter (mem_letters hletter)) hscan induction
  | case10 char later hquote _ _ hescape hend hcontrol induction =>
      have hslash : char ≠ '\\' := by
        intro hslash
        cases later with
        | nil => exact hend hslash rfl
        | cons letter later => exact hescape letter later hslash rfl
      exact writesGlyphs_of_withGlyph (.plain hquote hslash (Nat.not_lt.1 hcontrol)) hscan induction

/-! ## Numbers that are scanned -/

theorem isDigits_takeWhile {text : List Char} (hsome : text.takeWhile Char.isDigit ≠ []) :
    IsDigits (text.takeWhile Char.isDigit) := ⟨hsome, fun _ => List.mem_takeWhile_imp⟩

/-- A sign that may be left out, and what stands behind it. -/
theorem exists_sign (text : List Char) :
    ∃ sign, text = sign ++ (if text.head? = some '+' ∨ text.head? = some '-' then text.drop 1 else text) ∧
      WritesSign (text.head? = some '-') sign := by
  cases text with
  | nil => exact ⟨[], rfl, .none⟩
  | cons char rest =>
      by_cases hplus : char = '+'
      · subst hplus
        exact ⟨['+'], rfl, .plus⟩
      · by_cases hminus : char = '-'
        · subst hminus
          exact ⟨['-'], rfl, .minus⟩
        · refine ⟨[], ?_, ?_⟩
          · simp [hplus, hminus]
          · simpa [hminus] using WritesSign.none

theorem writesExponent_of_scanExponent {negative : Bool} {whole fraction text rest : List Char}
    {spelled : NumberText} (hscan : scanExponent negative whole fraction text = (.number spelled, rest)) :
    ∃ exponent chars, text = chars ++ rest ∧ spelled = ⟨negative, whole, fraction, exponent⟩ ∧
      WritesExponent exponent chars := by
  have hnone : (Token.number ⟨negative, whole, fraction, none⟩, text) = (.number spelled, rest) →
      ∃ exponent chars, text = chars ++ rest ∧ spelled = ⟨negative, whole, fraction, exponent⟩ ∧
        WritesExponent exponent chars := by
    intro hpair
    obtain ⟨hnumber, rfl⟩ := Prod.mk.inj hpair
    exact ⟨none, [], rfl, (Token.number.inj hnumber).symm, .none⟩
  cases text with
  | nil => exact hnone hscan
  | cons mark behind =>
      simp only [scanExponent] at hscan
      split at hscan
      · next hmark =>
        obtain ⟨sign, hbehind, hsign⟩ := exists_sign behind
        generalize (if behind.head? = some '+' ∨ behind.head? = some '-' then behind.drop 1 else behind) =
          digits at hscan hbehind
        split at hscan
        · exact absurd hscan (by simp)
        · next hsome =>
          obtain ⟨hnumber, rfl⟩ := Prod.mk.inj hscan
          refine ⟨_, mark :: sign ++ digits.takeWhile Char.isDigit, ?_, (Token.number.inj hnumber).symm,
            .some hmark hsign (isDigits_takeWhile hsome)⟩
          rw [List.append_assoc, List.takeWhile_append_dropWhile, List.cons_append, ← hbehind]
      · exact hnone hscan

theorem writesUnsigned_of_scanNumber {negative : Bool} {text rest : List Char} {spelled : NumberText}
    (hscan : scanNumber negative text = (.number spelled, rest)) :
    ∃ chars, text = chars ++ rest ∧ spelled.negative = negative ∧ WritesUnsigned spelled chars := by
  simp only [scanNumber] at hscan
  split at hscan
  · exact absurd hscan (by simp)
  · next hsome =>
    split at hscan
    · exact absurd hscan (by simp)
    · next hlead =>
      have hwhole := isDigits_takeWhile hsome
      have hzero : (text.takeWhile Char.isDigit).head? = some '0' → text.takeWhile Char.isDigit = ['0'] :=
        fun hfirst => Decidable.byContradiction fun hmore => hlead ⟨hfirst, hmore⟩
      have hparts := @List.takeWhile_append_dropWhile _ Char.isDigit text
      split at hscan
      · next behind hpoint =>
        split at hscan
        · exact absurd hscan (by simp)
        · next hpart =>
          obtain ⟨exponent, chars, hlater, rfl, hexponent⟩ := writesExponent_of_scanExponent hscan
          have hdigits := @List.takeWhile_append_dropWhile _ Char.isDigit behind
          refine ⟨_, ?_, rfl, .parts hwhole hzero (.some (isDigits_takeWhile hpart)) hexponent⟩
          rw [hpoint, ← hdigits, hlater] at hparts
          simpa using hparts.symm
      · obtain ⟨exponent, chars, hlater, rfl, hexponent⟩ := writesExponent_of_scanExponent hscan
        refine ⟨_, ?_, rfl, .parts hwhole hzero .none hexponent⟩
        rw [hlater] at hparts
        simpa using hparts.symm

/-! ## Tokens that are scanned -/

/-- Whether a token does not break off. -/
def Token.isClosed : Token → Bool
  | .tornNumber _ | .torn _ => false
  | .string spelled => spelled.fault.isNone
  | _ => true

/-- How a token is written. -/
inductive WritesToken : Token → List Char → Prop where
  | openArray : WritesToken .openArray ['[']
  | closeArray : WritesToken .closeArray [']']
  | openObject : WritesToken .openObject ['\x7b']
  | closeObject : WritesToken .closeObject ['\x7d']
  | comma : WritesToken .comma [',']
  | colon : WritesToken .colon [':']
  | null : WritesToken .null ['n', 'u', 'l', 'l']
  | bool {value : Bool} :
      WritesToken (.bool value) (if value then ['t', 'r', 'u', 'e'] else ['f', 'a', 'l', 's', 'e'])
  | number {spelled : NumberText} {piece : List Char} (hpiece : WritesNumber spelled piece) :
      WritesToken (.number spelled) piece
  | string {glyphs : List Glyph} {inside : List Char} (hglyphs : WritesGlyphs glyphs inside) :
      WritesToken (.string ⟨glyphs, none⟩) ('"' :: (inside ++ ['"']))

/-- A word that does not break off has its letters. -/
theorem letters_of_scanWord {word token : Token} {letters text rest : List Char}
    (hscan : scanWord word letters text = (token, rest)) (hclosed : token.isClosed = true) :
    token = word ∧ text = letters ++ rest := by
  induction letters generalizing text with
  | nil =>
      obtain ⟨rfl, rfl⟩ := Prod.mk.inj hscan
      exact ⟨rfl, rfl⟩
  | cons letter letters induction =>
      cases text with
      | nil =>
          obtain ⟨rfl, -⟩ := Prod.mk.inj hscan
          exact absurd hclosed Bool.false_ne_true
      | cons char text =>
          rw [scanWord] at hscan
          split at hscan
          · next hsame =>
            obtain ⟨rfl, rfl⟩ := induction hscan
            exact ⟨rfl, hsame ▸ rfl⟩
          · obtain ⟨rfl, -⟩ := Prod.mk.inj hscan
            exact absurd hclosed Bool.false_ne_true

/-- What is scanned for a number is a number unless it breaks off. -/
theorem exists_number {negative : Bool} {text rest : List Char} {token : Token}
    (hscan : scanNumber negative text = (token, rest)) (hclosed : token.isClosed = true) :
    ∃ spelled, token = .number spelled := by
  have hexponent : ∀ whole fraction later, scanExponent negative whole fraction later = (token, rest) →
      ∃ spelled, token = .number spelled := by
    intro whole fraction later hexponent
    cases later with
    | nil => exact ⟨_, (Prod.mk.inj hexponent).1.symm⟩
    | cons mark later =>
        simp only [scanExponent] at hexponent
        generalize (if later.head? = some '+' ∨ later.head? = some '-' then later.drop 1 else later) =
          digits at hexponent
        split at hexponent
        · split at hexponent
          · obtain ⟨rfl, -⟩ := Prod.mk.inj hexponent
            exact absurd hclosed Bool.false_ne_true
          · exact ⟨_, (Prod.mk.inj hexponent).1.symm⟩
        · exact ⟨_, (Prod.mk.inj hexponent).1.symm⟩
  simp only [scanNumber] at hscan
  repeat' split at hscan
  all_goals
    first
    | exact hexponent _ _ _ hscan
    | obtain ⟨rfl, -⟩ := Prod.mk.inj hscan
      exact absurd hclosed Bool.false_ne_true

/-- A token that is scanned and does not break off is written in front of what stands behind it. -/
theorem writesToken_of_scanToken {char : Char} {text rest : List Char} {token : Token}
    (hscan : scanToken char text = (token, rest)) (hclosed : token.isClosed = true) :
    ∃ piece, char :: text = piece ++ rest ∧ WritesToken token piece := by
  revert hscan
  fun_cases scanToken char text with
  | case1 | case2 | case3 | case4 | case5 | case6 =>
      intro hscan
      obtain ⟨rfl, rfl⟩ := Prod.mk.inj hscan
      subst_vars
      exact ⟨[_], rfl, by constructor⟩
  | case7 =>
      intro hscan
      obtain ⟨rfl, rfl⟩ := letters_of_scanWord hscan hclosed
      subst_vars
      exact ⟨_, rfl, .null⟩
  | case8 | case9 =>
      intro hscan
      obtain ⟨rfl, rfl⟩ := letters_of_scanWord hscan hclosed
      subst_vars
      exact ⟨_, rfl, .bool⟩
  | case10 =>
      intro hscan
      subst_vars
      change (Token.string (scanString text).1, (scanString text).2) = _ at hscan
      cases hscanned : scanString text with
      | mk spelled behind =>
          rw [hscanned] at hscan
          obtain ⟨rfl, rfl⟩ := Prod.mk.inj hscan
          obtain ⟨glyphs, fault⟩ := spelled
          obtain rfl : fault = none := Option.isNone_iff_eq_none.1 hclosed
          obtain ⟨inside, rfl, hglyphs⟩ := writesGlyphs_of_scanString hscanned
          exact ⟨_, by simp, .string hglyphs⟩
  | case11 =>
      intro hscan
      subst_vars
      obtain ⟨spelled, rfl⟩ := exists_number hscan hclosed
      obtain ⟨chars, rfl, hsign, hunsigned⟩ := writesUnsigned_of_scanNumber hscan
      exact ⟨_, rfl, .number (.negative hsign hunsigned)⟩
  | case12 =>
      intro hscan
      obtain ⟨spelled, rfl⟩ := exists_number hscan hclosed
      obtain ⟨chars, hchars, hsign, hunsigned⟩ := writesUnsigned_of_scanNumber hscan
      exact ⟨_, hchars, .number (.positive hsign hunsigned)⟩
  | case13 =>
      intro hscan
      obtain ⟨rfl, -⟩ := Prod.mk.inj hscan
      exact absurd hclosed Bool.false_ne_true

/-- A text is blank, or blanks and what a token is written as stand in front of it. -/
theorem tokens_cases (text : List Char) :
    IsBlanks text ∧ tokens text = [] ∨
      ∃ blanks char rest, IsBlanks blanks ∧ text = blanks ++ char :: rest ∧
        tokens text = (scanToken char rest).1 :: tokens (scanToken char rest).2 := by
  have hblanks : IsBlanks (text.takeWhile isBlank) := fun char => List.mem_takeWhile_imp
  have hparts := @List.takeWhile_append_dropWhile _ isBlank text
  have htokens := tokens_blanks hblanks (text.dropWhile isBlank)
  rw [hparts] at htokens
  cases hbehind : text.dropWhile isBlank with
  | nil =>
      refine .inl ⟨List.dropWhile_eq_nil_iff.1 hbehind, ?_⟩
      rw [htokens, hbehind, tokens_nil]
  | cons char rest =>
      have hblank := List.head?_dropWhile_not isBlank text
      rw [hbehind] at hblank hparts htokens
      exact .inr ⟨_, char, rest, hblanks, hparts.symm, htokens.trans (tokens_cons hblank rest)⟩

theorem isBlanks_of_tokens {text : List Char} (htokens : tokens text = []) : IsBlanks text := by
  obtain ⟨hblanks, -⟩ | ⟨_, _, _, _, _, hsome⟩ := tokens_cases text
  · exact hblanks
  · exact absurd (htokens.symm.trans hsome) (by simp)

theorem exists_led {text : List Char} {token : Token} {later : List Token}
    (htokens : tokens text = token :: later) (hclosed : token.isClosed = true) :
    ∃ chars piece rest, text = chars ++ rest ∧ WritesToken token piece ∧ Led piece chars ∧
      tokens rest = later := by
  obtain ⟨-, hnone⟩ | ⟨blanks, char, rest, hblanks, htext, hsome⟩ := tokens_cases text
  · exact absurd (htokens.symm.trans hnone) (by simp)
  · obtain ⟨htoken, hlater⟩ := List.cons.inj (hsome.symm.trans htokens)
    obtain ⟨piece, hpiece, hwrites⟩ := writesToken_of_scanToken (Prod.ext htoken rfl) hclosed
    refine ⟨blanks ++ piece, piece, _, ?_, hwrites, .blanks hblanks, hlater⟩
    rw [List.append_assoc, ← hpiece, htext]

/-! ## Trees that are arranged -/

theorem exists_separates {following : Bool} {text : List Char} {later : List Token}
    (htokens : tokens text = (if following then [.comma] else []) ++ later) :
    ∃ comma rest, text = comma ++ rest ∧ Separates following comma ∧ tokens rest = later := by
  cases following with
  | false => exact ⟨[], text, rfl, .first, htokens⟩
  | true =>
      obtain ⟨comma, piece, rest, htext, hwrites, hled, hrest⟩ := exists_led htokens rfl
      cases hwrites
      exact ⟨comma, rest, htext, .later hled, hrest⟩

/-- The tokens of a whole tree stand in a text of the tree. -/
theorem writes_of_tokens {layer : Layer} {tree : Tree layer} (hwhole : tree.isWhole = true)
    {following : Bool} {text : List Char} {later : List Token}
    (htokens : tokens text = tree.spelled following ++ later) :
    ∃ chars rest, text = chars ++ rest ∧ tree.Writes following chars ∧ tokens rest = later := by
  induction tree generalizing following text later with
  | null =>
      obtain ⟨chars, piece, rest, htext, hwrites, hled, hrest⟩ := exists_led htokens rfl
      cases hwrites
      exact ⟨chars, rest, htext, .null hled, hrest⟩
  | bool value =>
      obtain ⟨chars, piece, rest, htext, hwrites, hled, hrest⟩ := exists_led htokens rfl
      cases hwrites
      exact ⟨chars, rest, htext, .bool hled, hrest⟩
  | number spelled =>
      obtain ⟨chars, piece, rest, htext, hwrites, hled, hrest⟩ := exists_led htokens rfl
      cases hwrites with
      | number hpiece => exact ⟨chars, rest, htext, .number hpiece hled, hrest⟩
  | string spelled =>
      obtain ⟨chars, piece, rest, htext, hwrites, hled, hrest⟩ :=
        exists_led htokens (Bool.and_eq_true_iff.1 hwhole).1
      cases hwrites with
      | string hglyphs => exact ⟨chars, rest, htext, .string hglyphs hled, hrest⟩
  | array parts induction =>
      simp only [Tree.spelled, List.cons_append, List.append_assoc, List.nil_append] at htokens
      obtain ⟨front, piece, behind, rfl, hwrites, hopen, hinside⟩ := exists_led htokens rfl
      cases hwrites
      obtain ⟨inside, behind, rfl, hparts, hback⟩ := induction hwhole hinside
      obtain ⟨back, piece, rest, rfl, hwrites, hclose, hrest⟩ := exists_led hback rfl
      cases hwrites
      exact ⟨_, rest, by simp, .array hopen hparts hclose, hrest⟩
  | object parts induction =>
      simp only [Tree.spelled, List.cons_append, List.append_assoc, List.nil_append] at htokens
      obtain ⟨front, piece, behind, rfl, hwrites, hopen, hinside⟩ := exists_led htokens rfl
      cases hwrites
      obtain ⟨inside, behind, rfl, hparts, hback⟩ := induction hwhole hinside
      obtain ⟨back, piece, rest, rfl, hwrites, hclose, hrest⟩ := exists_led hback rfl
      cases hwrites
      exact ⟨_, rest, by simp, .object hopen hparts hclose, hrest⟩
  | noItems => exact ⟨[], text, rfl, .noItems, htokens⟩
  | noMembers => exact ⟨[], text, rfl, .noMembers, htokens⟩
  | item value rest value_induction rest_induction =>
      obtain ⟨hvalue, hrest⟩ := Bool.and_eq_true_iff.1 hwhole
      simp only [Tree.spelled, List.append_assoc] at htokens
      obtain ⟨comma, behind, rfl, hcomma, hbehind⟩ := exists_separates htokens
      obtain ⟨chars, behind, rfl, hchars, hbehind⟩ := value_induction hvalue hbehind
      obtain ⟨more, behind, rfl, hmore, hlater⟩ := rest_induction hrest hbehind
      exact ⟨_, behind, by simp, .item hcomma hchars hmore, hlater⟩
  | member name value rest value_induction rest_induction =>
      obtain ⟨hname, hrest⟩ := Bool.and_eq_true_iff.1 hwhole
      obtain ⟨hname, hvalue⟩ := Bool.and_eq_true_iff.1 hname
      simp only [Tree.spelled, List.append_assoc, List.cons_append] at htokens
      obtain ⟨comma, behind, rfl, hcomma, hbehind⟩ := exists_separates htokens
      obtain ⟨quoted, piece, behind, rfl, hwrites, hled, hbehind⟩ :=
        exists_led hbehind (Bool.and_eq_true_iff.1 hname).1
      obtain ⟨colon, piece, behind, rfl, hpoint, hcolon, hbehind⟩ := exists_led hbehind rfl
      cases hpoint
      obtain ⟨chars, behind, rfl, hchars, hbehind⟩ := value_induction hvalue hbehind
      obtain ⟨more, behind, rfl, hmore, hlater⟩ := rest_induction hrest hbehind
      cases hwrites with
      | string hglyphs =>
          exact ⟨_, behind, by simp, .member hcomma hglyphs hled hcolon hchars hmore, hlater⟩
  | tornNumber _ | torn _ | absent _ | itemsCut _ | itemsDangling _ | misnamed _ | membersCut _
  | membersDangling _ => exact absurd hwhole Bool.false_ne_true

/-! ## Values that trees hold -/

namespace Tree

variable {layer : Layer} {tree : Tree layer} {json : Json layer}

theorem Holds.isWhole (hholds : tree.Holds json) : tree.isWhole = true := by
  induction hholds with
  | null | bool | noItems | noMembers => rfl
  | number hvalue => rw [Tree.isWhole, hvalue, Option.isSome_some]
  | string htext =>
      rw [Tree.isWhole, ← StringText.isOk_decode, decode_of_makesUp htext]
      rfl
  | array _ induction | object _ induction => exact induction
  | item _ _ value_induction rest_induction => exact Bool.and_eq_true_iff.2 ⟨value_induction, rest_induction⟩
  | member hname _ _ value_induction rest_induction =>
      rw [Tree.isWhole, ← StringText.isOk_decode, decode_of_makesUp hname, value_induction, rest_induction]
      rfl

theorem Holds.depth_eq (hholds : tree.Holds json) : tree.depth = json.depth := by
  induction hholds with
  | null | bool | number _ | string _ | noItems | noMembers => rfl
  | array _ induction | object _ induction => exact congrArg (· + 1) induction
  | item _ _ value_induction rest_induction | member _ _ _ value_induction rest_induction =>
      rw [Tree.depth, Json.depth, value_induction, rest_induction]

theorem isComplete_of_isWhole (hwhole : tree.isWhole = true) : tree.isComplete = true := by
  induction tree with
  | null | bool _ | number _ | string _ | noItems | noMembers => rfl
  | array parts induction | object parts induction => exact induction hwhole
  | item value rest value_induction rest_induction =>
      obtain ⟨hvalue, hrest⟩ := Bool.and_eq_true_iff.1 hwhole
      exact Bool.and_eq_true_iff.2 ⟨value_induction hvalue, rest_induction hrest⟩
  | member name value rest value_induction rest_induction =>
      obtain ⟨hname, hrest⟩ := Bool.and_eq_true_iff.1 hwhole
      obtain ⟨-, hvalue⟩ := Bool.and_eq_true_iff.1 hname
      exact Bool.and_eq_true_iff.2 ⟨value_induction hvalue, rest_induction hrest⟩
  | tornNumber _ | torn _ | absent _ | itemsCut _ | itemsDangling _ | misnamed _ | membersCut _
  | membersDangling _ => exact absurd hwhole Bool.false_ne_true

theorem exists_text {glyphs : List Glyph} {inside : List Char} (hglyphs : WritesGlyphs glyphs inside)
    (hwhole : (⟨glyphs, none⟩ : StringText).isWhole = true) : ∃ text : String, MakesUp glyphs text.toList := by
  obtain ⟨chars, hchars⟩ := exists_makesUp hglyphs (Bool.and_eq_true_iff.1 hwhole).2
  refine ⟨String.ofList chars, ?_⟩
  rwa [String.toList_ofList]

/-- A whole tree that has a text holds a value. -/
theorem exists_holds {following : Bool} {chars : List Char} (hwrites : tree.Writes following chars)
    (hwhole : tree.isWhole = true) : ∃ json, tree.Holds json := by
  induction hwrites with
  | null => exact ⟨_, .null⟩
  | bool => exact ⟨_, .bool⟩
  | number _ _ =>
      obtain ⟨value, hvalue⟩ := Option.isSome_iff_exists.1 hwhole
      exact ⟨_, .number hvalue⟩
  | string hglyphs _ =>
      obtain ⟨text, htext⟩ := exists_text hglyphs hwhole
      exact ⟨_, .string htext⟩
  | array _ _ _ induction =>
      obtain ⟨items, hitems⟩ := induction hwhole
      exact ⟨_, .array hitems⟩
  | object _ _ _ induction =>
      obtain ⟨members, hmembers⟩ := induction hwhole
      exact ⟨_, .object hmembers⟩
  | noItems => exact ⟨_, .noItems⟩
  | noMembers => exact ⟨_, .noMembers⟩
  | item _ _ _ value_induction rest_induction =>
      obtain ⟨hvalue, hrest⟩ := Bool.and_eq_true_iff.1 hwhole
      obtain ⟨value, hvalue⟩ := value_induction hvalue
      obtain ⟨rest, hrest⟩ := rest_induction hrest
      exact ⟨_, .item hvalue hrest⟩
  | member _ hglyphs _ _ _ _ value_induction rest_induction =>
      obtain ⟨hname, hrest⟩ := Bool.and_eq_true_iff.1 hwhole
      obtain ⟨hname, hvalue⟩ := Bool.and_eq_true_iff.1 hname
      obtain ⟨name, hname⟩ := exists_text hglyphs hname
      obtain ⟨value, hvalue⟩ := value_induction hvalue
      obtain ⟨rest, hrest⟩ := rest_induction hrest
      exact ⟨_, .member hname hvalue hrest⟩

end Tree

/-! ## Texts of values -/

theorem IsText.document {json : Json .value} {text : String} (htext : IsText json text) :
    ∃ tree : Tree .value, tree.Holds json ∧ Document.ofText text = ⟨tree, false⟩ := by
  cases htext with
  | blanks hholds hchars hblanks htext =>
      refine ⟨_, hholds, ofText_of_tokens (Tree.isComplete_of_isWhole hholds.isWhole) ?_⟩
      have hnone := tokens_blanks hblanks []
      have hstop := stopsNumber_blanks hblanks stopsNumber_nil
      rw [List.append_nil] at hnone hstop
      rw [htext, tokens_writes hchars hstop, hnone, tokens_nil, List.append_nil]

theorem isText_of_tokens {tree : Tree .value} {json : Json .value} {text : String} (hholds : tree.Holds json)
    (htokens : tokens text.toList = tree.spelled false) : IsText json text := by
  obtain ⟨chars, blanks, htext, hchars, hblanks⟩ :=
    writes_of_tokens hholds.isWhole (htokens.trans (List.append_nil _).symm)
  exact .blanks hholds hchars (isBlanks_of_tokens hblanks) htext

theorem isText_of_document {tree : Tree .value} {text : String}
    (hdocument : Document.ofText text = ⟨tree, false⟩) (hwhole : tree.isWhole = true) :
    ∃ json, tree.Holds json ∧ IsText json text := by
  have htokens := tokens_of_ofText hdocument (Tree.isComplete_of_isWhole hwhole)
  obtain ⟨chars, blanks, -, hchars, -⟩ := writes_of_tokens hwhole (htokens.trans (List.append_nil _).symm)
  obtain ⟨json, hholds⟩ := Tree.exists_holds hchars hwhole
  exact ⟨json, hholds, isText_of_tokens hholds htokens⟩

/-! ## Printed values -/

/-- The tree of a printed value holds the value. -/
theorem holds_tree {layer : Layer} {json : Json layer} (hfits : json.fits = true) : (tree json).Holds json := by
  induction json with
  | null => exact .null
  | bool value => exact .bool
  | number value => exact .number (number?_ofNumber hfits)
  | string text => exact .string (makesUp_glyph _)
  | array items induction => exact .array (induction hfits)
  | object members induction => exact .object (induction hfits)
  | noItems => exact .noItems
  | noMembers => exact .noMembers
  | item value rest value_induction rest_induction =>
      obtain ⟨hvalue, hrest⟩ := Bool.and_eq_true_iff.1 hfits
      exact .item (value_induction hvalue) (rest_induction hrest)
  | member name value rest value_induction rest_induction =>
      obtain ⟨hvalue, hrest⟩ := Bool.and_eq_true_iff.1 hfits
      exact .member (makesUp_glyph _) (value_induction hvalue) (rest_induction hrest)

theorem isText_print {json : Json .value} (hfits : json.fits = true) :
    IsText json (String.ofList json.print) := by
  have hblanks : IsBlanks [] := fun char hchar => absurd hchar List.not_mem_nil
  refine .blanks (holds_tree hfits) (writes_print false hfits) hblanks ?_
  rw [String.toList_ofList, List.append_nil]
  rfl

end LogRelay.Json
