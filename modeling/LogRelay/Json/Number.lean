import LogRelay.Decimal.Shortest

/-!
# Numbers in JSON

A number without fraction and exponent that fits a signed or an unsigned word of 64 bits is kept as it
is; every other number becomes a double. A double is built from the leading digits that fit a word and
one multiplication or division by a power of ten, and a number beyond all doubles is refused.
-/

namespace LogRelay.Json

/-- A number as it is spelled. -/
structure NumberText where
  /-- Whether a minus sign stands in front. -/
  negative : Bool
  /-- Digits before the point. -/
  whole : List Char
  /-- Digits behind the point, none if there is no point. -/
  fraction : List Char
  /-- Sign and digits of the exponent. -/
  exponent : Option (Bool × List Char)
deriving DecidableEq, Repr

/-- A number. Doubles are given by their bits. -/
inductive Number where
  | whole (value : Int)
  | double (bits : UInt64)
deriving DecidableEq, Repr

/-- Digits gathered into one word, with the power of ten that they still have to be scaled by. -/
structure Significand where
  /-- The digits gathered so far. -/
  value : Nat
  /-- The power of ten. -/
  power : Int
  /-- Whether a digit has been left out. -/
  full : Bool
deriving DecidableEq, Repr

namespace Significand

/-- The greatest word. -/
def greatest : Nat := (1 <<< 64) - 1

/-- Takes a digit before the point. A digit that does not fit only scales the number. -/
def takeWhole (sum : Significand) (digit : Char) : Significand :=
  let next := 10 * sum.value + Digits.value digit
  if sum.full ∨ greatest < next then ⟨sum.value, sum.power + 1, true⟩
  else ⟨next, sum.power, false⟩

/-- Takes a digit behind the point. A digit that does not fit ends the gathering. -/
def takeFraction (sum : Significand) (digit : Char) : Significand :=
  let next := 10 * sum.value + Digits.value digit
  if sum.full ∨ greatest < next then { sum with full := true }
  else ⟨next, sum.power - 1, false⟩

/-- The word and the scale of the digits of a number. -/
def ofDigits (whole fraction : List Char) : Significand :=
  let before := whole.foldl takeWhole ⟨0, 0, false⟩
  fraction.foldl takeFraction { before with full := false }

end Significand

/-- The double nearest to a power of ten. -/
def tenTo (power : Nat) : Float := Float.ofScientific 1 false power

/-- Divides by a power of ten, in steps that doubles can represent. -/
def divideByTen : Nat → Float → Nat → Float
  | 0, value, _ => value
  | fuel + 1, value, power =>
      if power ≤ 308 then value / tenTo power
      else if value == 0 then value
      else divideByTen fuel (value / tenTo 308) (power - 308)

/-- A word scaled by a power of ten, unless the result is beyond all doubles. -/
def scale? (value : Nat) (power : Int) : Option Float :=
  let start := value.toUInt64.toFloat
  if 0 ≤ power then
    if power ≤ 308 then
      let product := start * tenTo power.toNat
      if product.isInf then none else some product
    else if value = 0 then some start
    else none
  else some (divideByTen 4 start power.natAbs)

/-- The bits of a double with a sign. -/
def signed (negative : Bool) (value : Float) : Number :=
  .double (if negative then -value else value).toBits

/-- Greatest exponent that is read in full. -/
def greatestExponent : Nat := (1 <<< 31) - 1

/-- The double that a number spells, unless it is beyond all doubles. -/
def NumberText.double? (spelled : NumberText) : Option Number :=
  let sum := Significand.ofDigits spelled.whole spelled.fraction
  match spelled.exponent with
  | none => (scale? sum.value sum.power).map (signed spelled.negative)
  | some (negative, digits) =>
      let exponent := Digits.toNat digits
      if greatestExponent < exponent then
        if sum.value ≠ 0 ∧ negative = false then none
        else some (signed spelled.negative 0)
      else
        let power := if negative then sum.power - exponent else sum.power + exponent
        (scale? sum.value power).map (signed spelled.negative)

/-- The number that is spelled, unless it is beyond all doubles. -/
def NumberText.number? (spelled : NumberText) : Option Number :=
  let value := Digits.toNat spelled.whole
  if spelled.fraction = [] ∧ spelled.exponent = none ∧ value < 1 <<< 64 then
    if spelled.negative then
      if 0 < value ∧ value ≤ 1 <<< 63 then some (.whole (-value)) else spelled.double?
    else some (.whole value)
  else spelled.double?

/-- Doubles are written positionally from five places behind the point to sixteen before it. -/
def doubleLayout : Decimal.Layout := ⟨-5, 15, ['.', '0'], 'e', ['+']⟩

/-- The text of a number. -/
def Number.print : Number → List Char
  | whole value =>
      if value < 0 then '-' :: Digits.decimal value.natAbs else Digits.decimal value.natAbs
  | double bits => Decimal.text doubleLayout bits

end LogRelay.Json
