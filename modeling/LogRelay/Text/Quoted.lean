import LogRelay.Text.Unprintable

/-!
# Quoted text

Debugging output puts a text between double quotes. Quotes, backslashes and the common controls get a
backslash, every other character without a glyph of its own is written as its code point.
-/

namespace LogRelay.Quoted

/-- A character written as its code point in hexadecimal. -/
def codePoint (char : Char) : List Char :=
  ['\\', 'u', '\x7b'] ++ Nat.toDigits 16 char.toNat ++ ['\x7d']

/-- The characters that stand for one character between the quotes. -/
def escape (escaped : List Char) (char : Char) : List Char :=
  if char = '\x00' then ['\\', '0']
  else if char = '\t' then ['\\', 't']
  else if char = '\r' then ['\\', 'r']
  else if char = '\n' then ['\\', 'n']
  else if escaped.contains char then ['\\', char]
  else if Unprintable.contains char then codePoint char
  else [char]

/-- A text between quotes, with a backslash before each of the given characters. -/
def between (escaped : List Char) (content : String) : String :=
  String.ofList ('"' :: content.toList.flatMap (escape escaped) ++ ['"'])

/-- A quoted text. -/
def text (content : String) : String := between ['"', '\\'] content

/-- A quoted file path, in which single quotes are escaped too. -/
def path (content : String) : String := between ['"', '\\', '\''] content

end LogRelay.Quoted
