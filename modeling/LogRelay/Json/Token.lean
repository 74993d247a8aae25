import LogRelay.Json.Number
import LogRelay.Text.Utf8

/-!
# Tokens of a JSON text

A text is cut into tokens from left to right. A token that is spelled wrongly is the last one: what
comes behind it is never looked at. A string keeps its escaped code units as they are spelled, since
only some readers ask whether they make up characters.
-/

namespace LogRelay.Json

/-- Why a reader refuses a text. -/
inductive Fault where
  /-- The value is well formed and not of the wanted kind. -/
  | mismatch
  /-- The text is not well formed. -/
  | malformed
  /-- The text ends too early. -/
  | truncated
deriving DecidableEq, Repr

/-- One character of a string as it is spelled: itself, or a code unit in hexadecimal. -/
inductive Glyph where
  | plain (char : Char)
  | coded (unit : Nat)
deriving DecidableEq, Repr

/-- A string as it is spelled, as far as it is spelled rightly. -/
structure StringText where
  /-- The characters up to the closing quote or to the fault. -/
  glyphs : List Glyph
  /-- What is wrong behind them. -/
  fault : Option Fault
deriving DecidableEq, Repr

/-- A token. -/
inductive Token where
  | openArray
  | closeArray
  | openObject
  | closeObject
  | comma
  | colon
  | null
  | bool (value : Bool)
  | number (spelled : NumberText)
  /-- A number that breaks off, at the end of the text or before. -/
  | tornNumber (atEnd : Bool)
  | string (spelled : StringText)
  | torn (fault : Fault)
deriving DecidableEq, Repr

/-- Whether a character may stand between tokens. -/
def isBlank (char : Char) : Bool :=
  char = ' ' || char = '\t' || char = '\n' || char = '\r'

/-- The character that a letter behind a backslash stands for. -/
def unescape? (letter : Char) : Option Char :=
  if letter = '"' then some '"'
  else if letter = '\\' then some '\\'
  else if letter = '/' then some '/'
  else if letter = 'b' then some '\x08'
  else if letter = 'f' then some '\x0c'
  else if letter = 'n' then some '\n'
  else if letter = 'r' then some '\r'
  else if letter = 't' then some '\t'
  else none

/-- Value of a hexadecimal digit. -/
def hexValue? (digit : Char) : Option Nat :=
  if '0' ≤ digit ∧ digit ≤ '9' then some (digit.toNat - 48)
  else if 'a' ≤ digit ∧ digit ≤ 'f' then some (digit.toNat - 87)
  else if 'A' ≤ digit ∧ digit ≤ 'F' then some (digit.toNat - 55)
  else none

/-- Value of four hexadecimal digits. -/
def codeUnit? (first second third fourth : Char) : Option Nat := do
  let first ← hexValue? first
  let second ← hexValue? second
  let third ← hexValue? third
  let fourth ← hexValue? fourth
  some (((first * 16 + second) * 16 + third) * 16 + fourth)

/-- A string with one more glyph in front, and the text behind it. -/
def withGlyph (glyph : Glyph) (later : StringText × List Char) : StringText × List Char :=
  (⟨glyph :: later.1.glyphs, later.1.fault⟩, later.2)

/-- A string that breaks off. -/
def tornString (fault : Fault) : StringText × List Char := (⟨[], some fault⟩, [])

/-- Reads a string behind its opening quote; also gives the rest of the text. -/
def scanString : List Char → StringText × List Char
  | [] => tornString .truncated
  | '"' :: rest => (⟨[], none⟩, rest)
  | '\\' :: 'u' :: first :: second :: third :: fourth :: rest =>
      match codeUnit? first second third fourth with
      | some unit => withGlyph (.coded unit) (scanString rest)
      | none => tornString .malformed
  | '\\' :: 'u' :: rest => tornString (if Utf8.size rest < 4 then .truncated else .malformed)
  | '\\' :: letter :: rest =>
      match unescape? letter with
      | some char => withGlyph (.plain char) (scanString rest)
      | none => tornString .malformed
  | ['\\'] => tornString .truncated
  | char :: rest =>
      if char.toNat < 32 then tornString .malformed else withGlyph (.plain char) (scanString rest)

/-- Reads the exponent of a number, if there is one. -/
def scanExponent (negative : Bool) (whole fraction : List Char) (text : List Char) :
    Token × List Char :=
  match text with
  | mark :: rest =>
      if mark = 'e' ∨ mark = 'E' then
        let sign := rest.head?
        let behind := if sign = some '+' ∨ sign = some '-' then rest.drop 1 else rest
        let digits := behind.takeWhile Char.isDigit
        if digits = [] then (.tornNumber (behind = []), [])
        else
          (.number ⟨negative, whole, fraction, some (sign = some '-', digits)⟩,
            behind.dropWhile Char.isDigit)
      else (.number ⟨negative, whole, fraction, none⟩, text)
  | [] => (.number ⟨negative, whole, fraction, none⟩, [])

/-- Reads a number behind its sign; also gives the rest of the text. -/
def scanNumber (negative : Bool) (text : List Char) : Token × List Char :=
  let whole := text.takeWhile Char.isDigit
  let behind := text.dropWhile Char.isDigit
  if whole = [] then (.tornNumber (text = []), [])
  else if whole.head? = some '0' ∧ whole ≠ ['0'] then (.tornNumber false, [])
  else
    match behind with
    | '.' :: rest =>
        let fraction := rest.takeWhile Char.isDigit
        let later := rest.dropWhile Char.isDigit
        if fraction = [] then (.tornNumber (later = []), [])
        else scanExponent negative whole fraction later
    | _ => scanExponent negative whole [] behind

/-- Reads the rest of a word. -/
def scanWord (token : Token) : List Char → List Char → Token × List Char
  | [], text => (token, text)
  | _ :: _, [] => (.torn .truncated, [])
  | letter :: letters, char :: rest =>
      if letter = char then scanWord token letters rest else (.torn .malformed, [])

/-- Reads the token that begins with a character; also gives the rest of the text. -/
def scanToken (char : Char) (rest : List Char) : Token × List Char :=
  if char = '[' then (.openArray, rest)
  else if char = ']' then (.closeArray, rest)
  else if char = '\x7b' then (.openObject, rest)
  else if char = '\x7d' then (.closeObject, rest)
  else if char = ',' then (.comma, rest)
  else if char = ':' then (.colon, rest)
  else if char = 'n' then scanWord .null ['u', 'l', 'l'] rest
  else if char = 't' then scanWord (.bool true) ['r', 'u', 'e'] rest
  else if char = 'f' then scanWord (.bool false) ['a', 'l', 's', 'e'] rest
  else if char = '"' then
    let scanned := scanString rest
    (.string scanned.1, scanned.2)
  else if char = '-' then scanNumber true rest
  else if char.isDigit then scanNumber false (char :: rest)
  else (.torn .malformed, [])

/-- The tokens of a text, at most as many as the first argument says. -/
def tokensUpTo : Nat → List Char → List Token
  | 0, _ => []
  | limit + 1, text =>
      match text.dropWhile isBlank with
      | [] => []
      | char :: rest =>
          let scanned := scanToken char rest
          scanned.1 :: tokensUpTo limit scanned.2

/-- The tokens of a text; every token takes at least one character. -/
def tokens (text : List Char) : List Token := tokensUpTo text.length text

end LogRelay.Json
