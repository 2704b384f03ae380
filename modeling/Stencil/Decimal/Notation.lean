import Stencil.Decimal.Shortest

/-!
Contract: how a floating-point number is written.

Owns:
- the decisions of a notation: which exponents are written out as zeros, and which of two equally
  near decimals is written;
- the words for what is no finite number;
- the text of a number in a notation.

Does not own: which notation an output uses (`Stencil.Value.Display`).
-/

set_option autoImplicit false

namespace Stencil.Decimal

/-- The decisions of a notation. An exponent is that of the leading digit. Numbers with exponents
between the bounds are written without a power of ten; no bound means no power of ten. -/
structure Notation where
  leastPositional : Option Int
  greatestPositional : Option Int
  tie : Tie
deriving DecidableEq, Repr

namespace Notation

def isPositional (style : Notation) (exponent : Int) : Bool :=
  (match style.leastPositional with
    | some least => least ≤ exponent
    | none => true) &&
  (match style.greatestPositional with
    | some greatest => exponent ≤ greatest
    | none => true)

/-- Integers below this power of ten end in a point and a zero. -/
def pointZeroLimit : Int := 16

private def zeros (count : Nat) : List Char := List.replicate count '0'

/-- Digits with the leading one worth `10 ^ exponent`, without a power of ten. -/
def positional (digits : List Char) (exponent : Int) : List Char :=
  if exponent < 0 then
    ['0', '.'] ++ zeros (-exponent - 1).toNat ++ digits
  else
    let whole := exponent.toNat + 1
    if digits.length ≤ whole then
      digits ++ zeros (whole - digits.length) ++
        (if exponent < pointZeroLimit then ['.', '0'] else [])
    else digits.take whole ++ ['.'] ++ digits.drop whole

/-- Digits with the leading one worth `10 ^ exponent`, with a power of ten. -/
def withPower (digits : List Char) (exponent : Int) : List Char :=
  let mantissa := match digits with
    | [] => []
    | [digit] => [digit]
    | digit :: fraction => digit :: '.' :: fraction
  mantissa ++ ['e'] ++ (toString exponent).toList

def write (style : Notation) (value : Float) : String :=
  match decode value with
  | .notANumber => "NaN"
  | .infinite negative => if negative then "-inf" else "inf"
  | .finite binary =>
      let sign := if binary.negative then "-" else ""
      if binary.mantissa = 0 then sign ++ "0.0"
      else
        let shortest := shortest style.tie binary
        let digits := (toString shortest.digits).toList
        let exponent := shortest.exponent + Int.ofNat digits.length - 1
        let text :=
          if style.isPositional exponent then positional digits exponent
          else withPower digits exponent
        sign ++ String.ofList text

end Notation

end Stencil.Decimal
