/-!
Contract: the value of a number written in decimal.

Owns:
- natural numbers, and numbers with a fraction and an exponent, as exact values;
- the nearest binary floating-point number to such a value.

Does not own: which characters of a template form a number (`Stencil.Token.Recognize`).
-/

set_option autoImplicit false

namespace Stencil.Decimal

/-- The value of digits after those that are worth `value`. -/
def digitsValue (value : Nat) (digits : List Char) : Nat := Nat.ofDigitChars 10 digits value

/-- The number that one or more digits write. -/
def natural? (text : List Char) : Option Nat :=
  if text.isEmpty then none else if text.all Char.isDigit then some (digitsValue 0 text) else none

def maxInt : Int := 9223372036854775807

def minInt : Int := -9223372036854775808

/-- The number that digits write, if it is an integer of 64 bits. -/
def integer? (text : List Char) : Option Int := do
  let value ← natural? text
  if (value : Int) ≤ maxInt then some value else none

structure Scientific where
  mantissa : Nat
  exponent : Int
deriving DecidableEq, Repr

namespace Scientific

/-- The exponent after its letter: digits, perhaps with a sign. -/
def exponent? : List Char → Option Int
  | '+' :: digits => (natural? digits).map Int.ofNat
  | '-' :: digits => (natural? digits).map fun value => -Int.ofNat value
  | digits => (natural? digits).map Int.ofNat

/-- The value of a text of digits with at most one point and at most one exponent. At least one
digit stands before the exponent. -/
def read? (text : List Char) : Option Scientific := do
  let whole := text.takeWhile Char.isDigit
  let rest := text.dropWhile Char.isDigit
  let (fraction, rest) := match rest with
    | '.' :: rest => (rest.takeWhile Char.isDigit, rest.dropWhile Char.isDigit)
    | rest => ([], rest)
  let mantissa ← natural? (whole ++ fraction)
  let exponent ← match rest with
    | [] => some 0
    | e :: rest => if e = 'e' ∨ e = 'E' then exponent? rest else none
  return ⟨mantissa, exponent - Int.ofNat fraction.length⟩

/-- The nearest floating-point number. Values far outside the range of such numbers are decided
before their powers of ten are computed. -/
def toFloat (value : Scientific) : Float :=
  let magnitude := Int.ofNat (toString value.mantissa).length + value.exponent
  if value.mantissa = 0 then 0.0
  else if magnitude > 400 then 1.0 / 0.0
  else if magnitude < -400 then 0.0
  else if value.exponent < 0 then
    Float.ofScientific value.mantissa true (-value.exponent).toNat
  else Float.ofScientific value.mantissa false value.exponent.toNat

end Scientific

/-- The floating-point number nearest to a decimal text. -/
def float? (text : List Char) : Option Float := (Scientific.read? text).map Scientific.toFloat

end Stencil.Decimal
