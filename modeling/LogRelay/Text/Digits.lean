/-!
# Decimal digits

Numbers are written in decimal, either with as many digits as they need or filled up with zeros to
a width.
-/

namespace LogRelay.Digits

/-- The digit with a value below ten. -/
def char (value : Nat) : Char := Char.ofNat (48 + value)

/-- The last `width` digits of a number. -/
def last : Nat → Nat → List Char
  | 0, _ => []
  | width + 1, number => last width (number / 10) ++ [char (number % 10)]

/-- All digits of a number. -/
def decimal (number : Nat) : List Char := Nat.toDigits 10 number

/-- The digits of a number, filled up with zeros to a width. -/
def padded (width number : Nat) : List Char :=
  if number < Nat.pow 10 width then last width number else decimal number

/-- A run of digits without the zeros at its end. -/
def trimmed (digits : List Char) : List Char :=
  (digits.reverse.dropWhile (· = '0')).reverse

/-- Value of a digit. -/
def value (digit : Char) : Nat := digit.toNat - 48

/-- Value of a run of digits. -/
def toNat (digits : List Char) : Nat :=
  digits.foldl (fun total digit => 10 * total + value digit) 0

@[simp]
theorem length_last (width number : Nat) : (last width number).length = width := by
  induction width generalizing number with
  | zero => rfl
  | succ width ih => simp [last, ih]

theorem isDigit_of_mem_decimal {number : Nat} {digit : Char} (hmem : digit ∈ decimal number) :
    digit.isDigit = true :=
  Nat.isDigit_of_mem_toDigits (by decide) (Nat.le_refl 10) hmem

end LogRelay.Digits
