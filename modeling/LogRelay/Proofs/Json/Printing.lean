import LogRelay.Proofs.Json.Scanning

/-!
# The characters of a printed value

No control character is left in a printed value: inside strings they are escaped, and outside there are only
brackets, commas, colons, words and numbers. So no blank stands outside strings either.
-/

namespace LogRelay

/-! ## Numbers -/

namespace Decimal

/-- The characters that a number is written with. -/
def Layout.Writes (layout : Layout) (char : Char) : Prop :=
  char.isDigit = true ∨ char ∈ '-' :: '.' :: layout.mark :: (layout.wholeEnd ++ layout.plus)

variable {layout : Layout} {digits : List Char} {exponent : Int}

theorem writes_decimal (layout : Layout) (number : Nat) :
    ∀ char ∈ Digits.decimal number, layout.Writes char :=
  fun _ hchar => .inl (Digits.isDigit_of_mem_decimal hchar)

theorem mem_trimmed {char : Char} (hchar : char ∈ Digits.trimmed digits) : char ∈ digits := by
  rw [Digits.trimmed, List.mem_reverse] at hchar
  exact List.mem_reverse.1 ((List.dropWhile_suffix _).subset hchar)

theorem writes_positional (hdigits : ∀ char ∈ digits, layout.Writes char) :
    ∀ char ∈ positional layout digits exponent, layout.Writes char := by
  have hzeros : ∀ count, ∀ char ∈ List.replicate count '0', layout.Writes char := by
    intro count char hchar
    rw [List.eq_of_mem_replicate hchar]
    exact .inl rfl
  have hpoint : layout.Writes '.' := .inr (by simp)
  intro char hchar
  simp only [positional] at hchar
  split at hchar
  · simp only [List.cons_append, List.nil_append, List.mem_cons, List.mem_append] at hchar
    rcases hchar with rfl | rfl | hzero | hdigit
    · exact .inl rfl
    · exact hpoint
    · exact hzeros _ char hzero
    · exact hdigits char hdigit
  · split at hchar
    · simp only [List.append_assoc, List.mem_append] at hchar
      rcases hchar with hdigit | hzero | hend
      · exact hdigits char hdigit
      · exact hzeros _ char hzero
      · exact .inr (by simp [hend])
    · simp only [List.mem_append, List.mem_cons] at hchar
      rcases hchar with hfront | rfl | hback
      · exact hdigits char (List.mem_of_mem_take hfront)
      · exact hpoint
      · exact hdigits char (List.mem_of_mem_drop hback)

theorem writes_scientific (hdigits : ∀ char ∈ digits, layout.Writes char) :
    ∀ char ∈ scientific layout digits exponent, layout.Writes char := by
  intro char hchar
  simp only [scientific, List.append_assoc, List.cons_append, List.mem_append, List.mem_cons] at hchar
  rcases hchar with hfirst | hfraction | hmark | hsign | hexponent
  · exact hdigits char (List.mem_of_mem_take hfirst)
  · split at hfraction
    · exact absurd hfraction List.not_mem_nil
    · rcases List.mem_cons.1 hfraction with rfl | hdigit
      · exact .inr (by simp)
      · exact hdigits char (List.mem_of_mem_drop hdigit)
  · exact .inr (by simp [hmark])
  · split at hsign
    · exact .inr (by simp [List.mem_singleton.1 hsign])
    · exact .inr (by simp [hsign])
  · exact writes_decimal layout _ char hexponent

theorem writes_text (layout : Layout) (bits : UInt64) :
    ∀ char ∈ text layout bits, layout.Writes char := by
  have hsign : ∀ (negative : Bool), ∀ char ∈ (if negative then ['-'] else []),
      layout.Writes char := by
    intro negative char hchar
    split at hchar
    · exact .inr (by simp [List.mem_singleton.1 hchar])
    · exact absurd hchar List.not_mem_nil
  intro char hchar
  simp only [text] at hchar
  split at hchar
  · simp only [List.mem_append, List.mem_cons] at hchar
    rcases hchar with hminus | rfl | hend
    · exact hsign _ char hminus
    · exact .inl rfl
    · exact .inr (by simp [hend])
  · rcases List.mem_append.1 hchar with hminus | hrest
    · exact hsign _ char hminus
    · have hdigits : ∀ number, ∀ digit ∈ Digits.trimmed (Digits.decimal number),
          layout.Writes digit := fun number digit hdigit =>
        writes_decimal layout number digit (mem_trimmed hdigit)
      split at hrest
      · exact writes_positional (hdigits _) char hrest
      · exact writes_scientific (hdigits _) char hrest

end Decimal

namespace Json

/-- Whether a character takes up ink and one byte and is no quote. -/
def isPlain (char : Char) : Bool := 32 < char.toNat && char.toNat < 127 && char ≠ '"'

theorem isPlain_of_writes {char : Char} (hwrites : doubleLayout.Writes char) : isPlain char = true := by
  rcases hwrites with hdigit | hsign
  · have hquote : char ≠ '"' := ne_of_isDigit hdigit '"' rfl
    have hcode : 48 ≤ char.toNat ∧ char.toNat ≤ 57 := by
      simp only [Char.isDigit, Bool.and_eq_true, decide_eq_true_eq] at hdigit
      exact hdigit
    simp only [isPlain, Bool.and_eq_true, decide_eq_true_eq]
    exact ⟨by omega, hquote⟩
  · have hsigns : ['-', '.', 'e', '.', '0', '+'].all isPlain = true := by decide
    exact List.all_eq_true.1 hsigns char hsign

theorem isPlain_print (value : Number) : ∀ char ∈ value.print, isPlain char = true := by
  intro char hchar
  refine isPlain_of_writes ?_
  cases value with
  | double bits => exact Decimal.writes_text doubleLayout bits char hchar
  | whole value =>
      rw [Number.print] at hchar
      split at hchar
      · rcases List.mem_cons.1 hchar with rfl | hdigit
        · exact .inr (by simp)
        · exact Decimal.writes_decimal doubleLayout _ char hdigit
      · exact Decimal.writes_decimal doubleLayout _ char hchar

/-! ## Strings -/

theorem ge_of_mem_escape (char : Char) : ∀ found ∈ escape char, 32 ≤ found.toNat := by
  have hhex : ∀ value < 16, 32 ≤ (hexDigit value).toNat := by decide
  fun_cases escape char with
  | case1 | case2 | case3 | case4 | case5 | case6 | case7 =>
      exact List.forall_mem_cons.2 ⟨by decide, List.forall_mem_singleton.2 (by decide)⟩
  | case8 =>
      simp only [List.mem_cons, List.not_mem_nil, or_false]
      rintro found (rfl | rfl | rfl | rfl | rfl | rfl)
      · decide
      · decide
      · decide
      · decide
      · exact hhex _ (by omega)
      · exact hhex _ (by omega)
  | case9 =>
      intro found hfound
      rw [List.mem_singleton.1 hfound]
      omega

theorem ge_of_mem_printString (text : String) :
    ∀ found ∈ printString text, 32 ≤ found.toNat := by
  intro found hfound
  simp only [printString, List.cons_append, List.mem_cons, List.mem_append, List.mem_flatMap,
    List.not_mem_nil, or_false] at hfound
  rcases hfound with rfl | ⟨char, -, hescape⟩ | rfl
  · decide
  · exact ge_of_mem_escape char found hescape
  · decide

/-- Where a character stands. -/
inductive Quoting where
  | outside
  | inside
  /-- Inside a string, behind a backslash. -/
  | escaped
deriving DecidableEq, Repr

/-- The characters outside strings, the quotes left out. -/
def unquotedFrom : Quoting → List Char → List Char
  | _, [] => []
  | .outside, char :: rest =>
      if char = '"' then unquotedFrom .inside rest else char :: unquotedFrom .outside rest
  | .inside, char :: rest =>
      if char = '"' then unquotedFrom .outside rest
      else if char = '\\' then unquotedFrom .escaped rest
      else unquotedFrom .inside rest
  | .escaped, _ :: rest => unquotedFrom .inside rest

/-- The characters of a text that stand outside strings. -/
def unquoted (text : List Char) : List Char := unquotedFrom .outside text

theorem unquoted_cons {char : Char} (hquote : char ≠ '"') (rest : List Char) :
    unquoted (char :: rest) = char :: unquoted rest := if_neg hquote

theorem unquotedFrom_inside {char : Char} (hquote : char ≠ '"') (hslash : char ≠ '\\')
    (rest : List Char) : unquotedFrom .inside (char :: rest) = unquotedFrom .inside rest := by
  rw [unquotedFrom, if_neg hquote, if_neg hslash]

theorem unquotedFrom_escape (char : Char) (rest : List Char) :
    unquotedFrom .inside (escape char ++ rest) = unquotedFrom .inside rest := by
  have hhex : ∀ value < 16, hexDigit value ≠ '"' ∧ hexDigit value ≠ '\\' := by decide
  fun_cases escape char with
  | case1 | case2 | case3 | case4 | case5 | case6 | case7 => rfl
  | case8 =>
      obtain ⟨hquote, hslash⟩ := hhex (char.toNat / 16) (by omega)
      obtain ⟨hlastQuote, hlastSlash⟩ := hhex (char.toNat % 16) (by omega)
      calc
        _ = unquotedFrom .inside (hexDigit (char.toNat / 16) :: hexDigit (char.toNat % 16) :: rest) :=
          rfl
        _ = unquotedFrom .inside rest := by
          rw [unquotedFrom_inside hquote hslash, unquotedFrom_inside hlastQuote hlastSlash]
  | case9 hquote hslash => exact unquotedFrom_inside hquote hslash rest

theorem unquoted_printString (text : String) (rest : List Char) :
    unquoted (printString text ++ rest) = unquoted rest := by
  have hinside : ∀ chars : List Char,
      unquotedFrom .inside (chars.flatMap escape ++ '"' :: rest) = unquoted rest := by
    intro chars
    induction chars with
    | nil => rfl
    | cons char chars induction =>
        rw [List.flatMap_cons, List.append_assoc, unquotedFrom_escape, induction]
  rw [printString, List.cons_append, List.cons_append, List.append_assoc]
  exact hinside text.toList

/-! ## Values -/

/-- What holds of a text, of every text with a plain character more in front, and of every text with a string
more in front, holds of the text with a printed value in front. -/
theorem printFrom_append_induction {motive : List Char → Prop}
    (hplain : ∀ {char : Char}, isPlain char = true → ∀ {rest}, motive rest → motive (char :: rest))
    (hstring : ∀ text {rest}, motive rest → motive (printString text ++ rest))
    {layer : Layer} (following : Bool) (json : Json layer) {rest : List Char} (hrest : motive rest) :
    motive (printFrom following json ++ rest) := by
  have hword : ∀ word : List Char, word.all isPlain = true → ∀ {rest}, motive rest →
      motive (word ++ rest) := by
    intro word hword rest hrest
    induction word with
    | nil => exact hrest
    | cons char word induction =>
        rw [List.all_cons, Bool.and_eq_true] at hword
        obtain ⟨hchar, hbehind⟩ := hword
        exact hplain hchar (induction hbehind)
  have hcomma : ∀ following : Bool, (if following then [','] else []).all isPlain = true := by decide
  induction json generalizing following rest with
  | null => exact hword ['n', 'u', 'l', 'l'] (by decide) hrest
  | bool value =>
      cases value with
      | false => exact hword ['f', 'a', 'l', 's', 'e'] (by decide) hrest
      | true => exact hword ['t', 'r', 'u', 'e'] (by decide) hrest
  | number value => exact hword value.print (List.all_eq_true.2 (isPlain_print value)) hrest
  | string text => exact hstring text hrest
  | array items induction =>
      rw [printFrom, List.append_assoc]
      exact @hplain '[' (by decide) _ (induction false (@hplain ']' (by decide) _ hrest))
  | object members induction =>
      rw [printFrom, List.append_assoc]
      exact @hplain '\x7b' (by decide) _ (induction false (@hplain '\x7d' (by decide) _ hrest))
  | noItems | noMembers => exact hrest
  | item value later value_induction later_induction =>
      simp only [printFrom, List.append_assoc]
      exact hword _ (hcomma following) (value_induction false (later_induction true hrest))
  | member name value later value_induction later_induction =>
      simp only [printFrom, List.append_assoc, List.cons_append]
      refine hword _ (hcomma following) (hstring name ?_)
      exact @hplain ':' (by decide) _ (value_induction false (later_induction true hrest))

theorem ge_of_mem_printFrom {layer : Layer} (following : Bool) (json : Json layer) :
    ∀ char ∈ printFrom following json, 32 ≤ char.toNat := by
  rw [← List.append_nil (printFrom following json)]
  refine @printFrom_append_induction (fun text => ∀ char ∈ text, 32 ≤ char.toNat) ?_ ?_ _ following
    json [] (List.forall_mem_nil _)
  · intro char hplain rest hrest
    simp only [isPlain, Bool.and_eq_true, decide_eq_true_eq] at hplain
    exact List.forall_mem_cons.2 ⟨by omega, hrest⟩
  · intro text rest hrest
    exact List.forall_mem_append.2 ⟨ge_of_mem_printString text, hrest⟩

theorem isPlain_of_mem_unquoted_print (value : Json .value) :
    ∀ char ∈ unquoted value.print, isPlain char = true := by
  rw [print, ← List.append_nil (printFrom false value)]
  refine @printFrom_append_induction (fun text => ∀ char ∈ unquoted text, isPlain char = true) ?_ ?_ _
    false value [] (List.forall_mem_nil _)
  · intro char hplain rest hrest
    have hquote : char ≠ '"' := by
      rintro rfl
      exact absurd hplain (by decide)
    rw [unquoted_cons hquote]
    exact List.forall_mem_cons.2 ⟨hplain, hrest⟩
  · intro text rest hrest
    rwa [unquoted_printString]

end Json

end LogRelay
