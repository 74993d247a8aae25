import LogRelay.Json.Reader

/-!
# The grammar of JSON texts

One value has many texts: blanks may stand in front of every token, and the characters of a string may stand
for themselves or be escaped, by a letter or by their code units. This file says which texts a tree has and
which value it holds, and so which texts a value has.
-/

namespace LogRelay.Json

/-! ## Strings -/

/-- Letters behind a backslash and the characters they stand for. -/
def letters : List (Char × Char) :=
  [('"', '"'), ('\\', '\\'), ('/', '/'), ('b', '\x08'), ('f', '\x0c'), ('n', '\n'), ('r', '\r'), ('t', '\t')]

/-- A hexadecimal digit with its value, in either case. -/
def HexDigit (value : Nat) (digit : Char) : Prop :=
  ['0', '1', '2', '3', '4', '5', '6', '7', '8', '9', 'a', 'b', 'c', 'd', 'e', 'f'][value]? = some digit ∨
    ['0', '1', '2', '3', '4', '5', '6', '7', '8', '9', 'A', 'B', 'C', 'D', 'E', 'F'][value]? = some digit

/-- How a glyph is written: a character that is no control character, quote or backslash as itself, a character
with a letter by its letter, and a code unit by four hexadecimal digits. -/
inductive WritesGlyph : Glyph → List Char → Prop where
  | plain {char : Char} (hquote : char ≠ '"') (hslash : char ≠ '\\') (hcontrol : 32 ≤ char.toNat) :
      WritesGlyph (.plain char) [char]
  | letter {letter char : Char} (hletter : (letter, char) ∈ letters) : WritesGlyph (.plain char) ['\\', letter]
  | coded {first second third fourth : Nat} {a b c d : Char} (hfirst : HexDigit first a)
      (hsecond : HexDigit second b) (hthird : HexDigit third c) (hfourth : HexDigit fourth d) :
      WritesGlyph (.coded (((first * 16 + second) * 16 + third) * 16 + fourth)) ['\\', 'u', a, b, c, d]

/-- How glyphs are written, one behind the other. -/
inductive WritesGlyphs : List Glyph → List Char → Prop where
  | nil : WritesGlyphs [] []
  | cons {glyph : Glyph} {piece : List Char} {glyphs : List Glyph} {chars : List Char}
      (hglyph : WritesGlyph glyph piece) (hrest : WritesGlyphs glyphs chars) :
      WritesGlyphs (glyph :: glyphs) (piece ++ chars)

/-- The characters that glyphs make up: a code unit is the code of a character, or two of them are a pair that
stands for a character beyond the first plane. -/
inductive MakesUp : List Glyph → List Char → Prop where
  | nil : MakesUp [] []
  | plain {char : Char} {glyphs : List Glyph} {chars : List Char} (hrest : MakesUp glyphs chars) :
      MakesUp (.plain char :: glyphs) (char :: chars)
  | coded {char : Char} {glyphs : List Glyph} {chars : List Char} (hrest : MakesUp glyphs chars) :
      MakesUp (.coded char.toNat :: glyphs) (char :: chars)
  | pair {char : Char} {high low : Nat} {glyphs : List Glyph} {chars : List Char} (hhigh : high < 1024)
      (hlow : low < 1024) (hchar : char.toNat = 0x10000 + high * 1024 + low) (hrest : MakesUp glyphs chars) :
      MakesUp (.coded (0xd800 + high) :: .coded (0xdc00 + low) :: glyphs) (char :: chars)

/-! ## Numbers -/

/-- One digit or more. -/
def IsDigits (digits : List Char) : Prop := digits ≠ [] ∧ ∀ digit ∈ digits, digit.isDigit = true

/-- A fraction behind a point, or none. -/
inductive WritesFraction : List Char → List Char → Prop where
  | none : WritesFraction [] []
  | some {digits : List Char} (hdigits : IsDigits digits) : WritesFraction digits ('.' :: digits)

/-- A sign in front of an exponent, which need not be there if it is a plus. -/
inductive WritesSign : Bool → List Char → Prop where
  | none : WritesSign false []
  | plus : WritesSign false ['+']
  | minus : WritesSign true ['-']

/-- An exponent behind its mark, or none. -/
inductive WritesExponent : Option (Bool × List Char) → List Char → Prop where
  | none : WritesExponent none []
  | some {mark : Char} {negative : Bool} {sign digits : List Char} (hmark : mark = 'e' ∨ mark = 'E')
      (hsign : WritesSign negative sign) (hdigits : IsDigits digits) :
      WritesExponent (some (negative, digits)) (mark :: sign ++ digits)

/-- A number without its sign. No digit stands behind a zero in front. -/
inductive WritesUnsigned (spelled : NumberText) : List Char → Prop where
  | parts {fraction exponent : List Char} (hwhole : IsDigits spelled.whole)
      (hzero : spelled.whole.head? = some '0' → spelled.whole = ['0'])
      (hfraction : WritesFraction spelled.fraction fraction)
      (hexponent : WritesExponent spelled.exponent exponent) :
      WritesUnsigned spelled (spelled.whole ++ (fraction ++ exponent))

/-- A number. -/
inductive WritesNumber (spelled : NumberText) : List Char → Prop where
  | positive {chars : List Char} (hsign : spelled.negative = false) (hunsigned : WritesUnsigned spelled chars) :
      WritesNumber spelled chars
  | negative {chars : List Char} (hsign : spelled.negative = true) (hunsigned : WritesUnsigned spelled chars) :
      WritesNumber spelled ('-' :: chars)

/-! ## Trees -/

/-- Blanks only. -/
def IsBlanks (chars : List Char) : Prop := ∀ char ∈ chars, isBlank char = true

/-- A piece of text with blanks in front of it. -/
inductive Led (piece : List Char) : List Char → Prop where
  | blanks {blanks : List Char} (hblanks : IsBlanks blanks) : Led piece (blanks ++ piece)

/-- What separates an item or a member from the one in front of it. -/
inductive Separates : Bool → List Char → Prop where
  | first : Separates false []
  | later {chars : List Char} (hcomma : Led [','] chars) : Separates true chars

namespace Tree

/-- The texts of a tree; of items and members, what stands between the brackets, with a comma in front of every
one if `following` holds and of every one but the first otherwise. -/
inductive Writes : {layer : Layer} → (following : Bool) → Tree layer → List Char → Prop where
  | null {following : Bool} {chars : List Char} (hled : Led ['n', 'u', 'l', 'l'] chars) :
      Writes following .null chars
  | bool {following value : Bool} {chars : List Char}
      (hled : Led (if value then ['t', 'r', 'u', 'e'] else ['f', 'a', 'l', 's', 'e']) chars) :
      Writes following (.bool value) chars
  | number {following : Bool} {spelled : NumberText} {piece chars : List Char}
      (hpiece : WritesNumber spelled piece) (hled : Led piece chars) : Writes following (.number spelled) chars
  | string {following : Bool} {glyphs : List Glyph} {inside chars : List Char}
      (hglyphs : WritesGlyphs glyphs inside) (hled : Led ('"' :: (inside ++ ['"'])) chars) :
      Writes following (.string ⟨glyphs, none⟩) chars
  | array {following : Bool} {items : Tree .items} {front inside back : List Char} (hopen : Led ['['] front)
      (hitems : Writes false items inside) (hclose : Led [']'] back) :
      Writes following (.array items) (front ++ (inside ++ back))
  | object {following : Bool} {members : Tree .members} {front inside back : List Char}
      (hopen : Led ['\x7b'] front) (hmembers : Writes false members inside) (hclose : Led ['\x7d'] back) :
      Writes following (.object members) (front ++ (inside ++ back))
  | noItems {following : Bool} : Writes following .noItems []
  | item {following : Bool} {value : Tree .value} {rest : Tree .items} {comma chars behind : List Char}
      (hcomma : Separates following comma) (hvalue : Writes false value chars)
      (hrest : Writes true rest behind) : Writes following (.item value rest) (comma ++ (chars ++ behind))
  | noMembers {following : Bool} : Writes following .noMembers []
  | member {following : Bool} {glyphs : List Glyph} {value : Tree .value} {rest : Tree .members}
      {comma inside name colon chars behind : List Char} (hcomma : Separates following comma)
      (hglyphs : WritesGlyphs glyphs inside) (hled : Led ('"' :: (inside ++ ['"'])) name)
      (hcolon : Led [':'] colon) (hvalue : Writes false value chars) (hrest : Writes true rest behind) :
      Writes following (.member ⟨glyphs, none⟩ value rest) (comma ++ (name ++ (colon ++ (chars ++ behind))))

/-- The value that a tree holds, with its members in the order of the tree. -/
inductive Holds : {layer : Layer} → Tree layer → Json layer → Prop where
  | null : Holds .null .null
  | bool {value : Bool} : Holds (.bool value) (.bool value)
  | number {spelled : NumberText} {value : Number} (hvalue : spelled.number? = some value) :
      Holds (.number spelled) (.number value)
  | string {glyphs : List Glyph} {text : String} (htext : MakesUp glyphs text.toList) :
      Holds (.string ⟨glyphs, none⟩) (.string text)
  | array {tree : Tree .items} {items : Json .items} (hitems : Holds tree items) :
      Holds (.array tree) (.array items)
  | object {tree : Tree .members} {members : Json .members} (hmembers : Holds tree members) :
      Holds (.object tree) (.object members)
  | noItems : Holds .noItems .noItems
  | item {value : Tree .value} {rest : Tree .items} {json : Json .value} {items : Json .items}
      (hvalue : Holds value json) (hrest : Holds rest items) : Holds (.item value rest) (.item json items)
  | noMembers : Holds .noMembers .noMembers
  | member {glyphs : List Glyph} {value : Tree .value} {rest : Tree .members} {name : String}
      {json : Json .value} {members : Json .members} (hname : MakesUp glyphs name.toList)
      (hvalue : Holds value json) (hrest : Holds rest members) :
      Holds (.member ⟨glyphs, none⟩ value rest) (.member name json members)

end Tree

/-- The texts of a value, with blanks around them. -/
inductive IsText (json : Json .value) (text : String) : Prop where
  | blanks {tree : Tree .value} {chars blanks : List Char} (hholds : tree.Holds json)
      (hchars : tree.Writes false chars) (hblanks : IsBlanks blanks) (htext : text.toList = chars ++ blanks)

end LogRelay.Json
