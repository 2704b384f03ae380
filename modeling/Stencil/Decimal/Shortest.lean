/-!
Contract: the shortest decimal that reads back as a given floating-point number.

Owns:
- the exact value of a floating-point number as a mantissa and a power of two;
- the fewest digits that read back, and among those the nearest to the value.

A decimal reads back when it lies in the interval of numbers that round to the value; the ends of
the interval belong to it when the mantissa is even. On a grid of decimals with a given number of
digits only the two neighbours of the value need to be tried.

Does not own: where the point and the exponent are written (`Stencil.Decimal.Notation`).
-/

set_option autoImplicit false

namespace Stencil.Decimal

/-- A finite binary value `± mantissa · 2 ^ exponent`. `narrow` tells that the next value below is
only half as far away as the next one above. -/
structure Binary where
  negative : Bool
  mantissa : Nat
  exponent : Int
  narrow : Bool
deriving DecidableEq, Repr

inductive Decoded where
  | finite (value : Binary)
  | infinite (negative : Bool)
  | notANumber
deriving DecidableEq, Repr

/-- The parts of a floating-point number of 64 bits. -/
def decode (value : Float) : Decoded :=
  let bits := value.toBits.toNat
  let negative := bits / Nat.pow 2 63 == 1
  let biased := bits / Nat.pow 2 52 % Nat.pow 2 11
  let fraction := bits % Nat.pow 2 52
  if biased = 2047 then
    if fraction = 0 then .infinite negative else .notANumber
  else if biased = 0 then .finite ⟨negative, fraction, -1074, false⟩
  else .finite ⟨negative, Nat.pow 2 52 + fraction, Int.ofNat biased - 1075, fraction = 0 && biased > 1⟩

structure Digits where
  digits : Nat
  exponent : Int
deriving DecidableEq, Repr

/-- The exact value of a mantissa and the ends of the interval that rounds to it, as multiples of
one unit, and how many units make one. -/
structure Interval where
  low : Nat
  value : Nat
  high : Nat
  unit : Nat
  closed : Bool

/-- The interval of the numbers that round to a value, in units of a quarter of its last place or
finer. -/
def Binary.interval (value : Binary) : Interval :=
  let scale := Nat.pow 2 (value.exponent - 2).toNat
  { low := (4 * value.mantissa - if value.narrow then 1 else 2) * scale
    value := 4 * value.mantissa * scale
    high := (4 * value.mantissa + 2) * scale
    unit := Nat.pow 2 (2 - value.exponent).toNat
    closed := value.mantissa % 2 == 0 }

/-- The number of decimal digits before the point, for a value of at least one; otherwise one less
than the zeros that follow the point, counted below zero. `limit` bounds the search for zeros. -/
def magnitude (interval : Interval) (limit : Nat) : Int :=
  if interval.unit ≤ interval.value then
    Int.ofNat (toString (interval.value / interval.unit)).length
  else
    let rec zeros (value : Nat) (passed : Nat) : Nat → Int
      | 0 => 1 - Int.ofNat passed
      | limit + 1 =>
          if interval.unit ≤ value then 1 - Int.ofNat passed
          else zeros (value * 10) (passed + 1) limit
    zeros interval.value 0 limit

/-- Which of two decimals stands for a value that lies halfway between them. -/
inductive Tie where
  | toGreater
  | toEven
deriving DecidableEq, Repr

/-- Whether the lesser one of two decimals around a value stands for it, by their distances. -/
def Tie.takesBelow (tie : Tie) (below : Nat) (toBelow toAbove : Nat) : Bool :=
  toBelow < toAbove || (toBelow == toAbove && tie == .toEven && below % 2 == 0)

/-- The neighbours of the value on the grid of multiples of `10 ^ exponent`: the nearer one of
those that lie in the interval. -/
def neighbour? (tie : Tie) (interval : Interval) (exponent : Int) : Option Nat :=
  let up := Nat.pow 10 (-exponent).toNat
  let step := Nat.pow 10 exponent.toNat * interval.unit
  let value := interval.value * up
  let below := value / step
  let inside (candidate : Nat) : Bool :=
    let place := candidate * step
    if interval.closed then interval.low * up ≤ place && place ≤ interval.high * up
    else interval.low * up < place && place < interval.high * up
  let above := below + 1
  if inside below &&
      (!inside above || tie.takesBelow below (value - below * step) (above * step - value)) then
    some below
  else if inside above then some above
  else none

/-- The value without the zeros that end its digits. -/
def withoutZeros (digits : Nat) (exponent : Int) : Nat → Digits
  | 0 => ⟨digits, exponent⟩
  | limit + 1 =>
      if digits % 10 = 0 ∧ digits ≠ 0 then withoutZeros (digits / 10) (exponent + 1) limit
      else ⟨digits, exponent⟩

/-- The fewest digits that read back as a value other than zero. -/
def shortest (tie : Tie) (value : Binary) : Digits :=
  let interval := value.interval
  let digitsBefore := magnitude interval 400
  let rec search (count : Nat) : Nat → Digits
    | 0 => ⟨0, 0⟩
    | limit + 1 =>
        let exponent := digitsBefore - Int.ofNat count
        match neighbour? tie interval exponent with
        | some digits => withoutZeros digits exponent 20
        | none => search (count + 1) limit
  search 1 20

end Stencil.Decimal
