import LogRelay.Text.Digits

/-!
# Shortest decimals of binary fractions

A double is a sign and a multiple of a power of two. All reals that round to it form an interval; its
decimal text is the one with the fewest digits in that interval and, of those, the nearest. One record
says where positional notation ends and what is written around the digits.
-/

namespace LogRelay.Decimal

/-- A finite double without its sign: `fraction` times two to the `power`. -/
structure Binary where
  /-- The whole-numbered factor. -/
  fraction : Nat
  /-- The power of two. -/
  power : Int
deriving DecidableEq, Repr

/-- The sign and the magnitude of the double with the given bits. -/
def Binary.ofBits (bits : UInt64) : Bool × Binary :=
  let word := bits.toNat
  let exponent : Nat := word / (1 <<< 52) % (1 <<< 11)
  let low := word % (1 <<< 52)
  (1 <<< 63 ≤ word,
    if exponent = 0 then ⟨low, -1074⟩ else ⟨low + (1 <<< 52), (exponent : Int) - 1075⟩)

/-- A decimal: digits of a whole number and a power of ten. -/
structure Scaled where
  /-- The whole-numbered factor. -/
  digits : Nat
  /-- The power of ten. -/
  power : Int
deriving DecidableEq, Repr

/-- Numerator and denominator of a binary fraction scaled by four and by a power of ten, so that half
the distance to the next double is a whole number too. -/
def Binary.scaledBy (value : Binary) (tenPower : Int) : Nat × Nat :=
  let up := (if 0 ≤ value.power then 1 <<< value.power.toNat else 1) *
    (if 0 ≤ tenPower then 1 else Nat.pow 10 (-tenPower).toNat)
  let down := (if 0 ≤ value.power then 1 else 1 <<< (-value.power).toNat) *
    (if 0 ≤ tenPower then Nat.pow 10 tenPower.toNat else 1)
  (up, 4 * down)

/-- The decimal nearest to a double among the multiples of a power of ten that round to it. -/
def Binary.onGrid? (value : Binary) (tenPower : Int) : Option Nat :=
  let unit := value.scaledBy tenPower
  let middle := 4 * value.fraction * unit.1
  let below := if value.fraction = 1 <<< 52 ∧ -1074 < value.power then unit.1 else 2 * unit.1
  let above := 2 * unit.1
  let even := value.fraction % 2 = 0
  let inside := fun candidate : Nat =>
    let place := candidate * unit.2
    (if even then middle - below ≤ place else middle - below < place) ∧
      (if even then place ≤ middle + above else place < middle + above)
  let low := middle / unit.2
  let high := low + 1
  let lowGap := middle - low * unit.2
  let highGap := high * unit.2 - middle
  if inside low ∧ (¬ inside high ∨ lowGap < highGap ∨ (lowGap = highGap ∧ low % 2 = 0)) then
    some low
  else if inside high then some high
  else none

/-- Tries finer and finer grids until one has a decimal that rounds to the double. -/
def Binary.search (value : Binary) : Nat → Int → Scaled
  | 0, power => ⟨0, power⟩
  | fuel + 1, power =>
      match value.onGrid? power with
      | some digits => if digits = 0 then value.search fuel (power - 1) else ⟨digits, power⟩
      | none => value.search fuel (power - 1)

/-- The shortest decimal of a double other than zero. -/
def Binary.shortest (value : Binary) : Scaled :=
  let magnitude := value.power + (value.fraction.log2 : Int)
  let start := magnitude * 30103 / 100000 + 2
  value.search 24 start

/-- What a decimal text looks like. -/
structure Layout where
  /-- Smallest exponent that is written positionally. -/
  leastPositional : Int
  /-- Greatest exponent that is written positionally. -/
  greatestPositional : Int
  /-- What follows a whole number. -/
  wholeEnd : List Char
  /-- The mark before an exponent. -/
  mark : Char
  /-- What precedes an exponent that is not negative. -/
  plus : List Char

/-- A decimal in positional notation. -/
def positional (layout : Layout) (digits : List Char) (exponent : Int) : List Char :=
  if exponent < 0 then
    ['0', '.'] ++ List.replicate (-exponent - 1).toNat '0' ++ digits
  else
    let count := exponent.toNat + 1
    if digits.length ≤ count then
      digits ++ List.replicate (count - digits.length) '0' ++ layout.wholeEnd
    else digits.take count ++ '.' :: digits.drop count

/-- A decimal with one digit before the point and an exponent. -/
def scientific (layout : Layout) (digits : List Char) (exponent : Int) : List Char :=
  let fraction := digits.drop 1
  digits.take 1 ++ (if fraction = [] then [] else '.' :: fraction) ++ layout.mark ::
    (if exponent < 0 then ['-'] else layout.plus) ++ Digits.decimal exponent.natAbs

/-- The text of the double with the given bits, which must be finite. -/
def text (layout : Layout) (bits : UInt64) : List Char :=
  let value := Binary.ofBits bits
  let sign := if value.1 then ['-'] else []
  if value.2.fraction = 0 then sign ++ '0' :: layout.wholeEnd
  else
    let decimal := value.2.shortest
    let all := Digits.decimal decimal.digits
    let digits := Digits.trimmed all
    let exponent := decimal.power + (all.length : Int) - 1
    sign ++
      if layout.leastPositional ≤ exponent ∧ exponent ≤ layout.greatestPositional then
        positional layout digits exponent
      else scientific layout digits exponent

end LogRelay.Decimal
