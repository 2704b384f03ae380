import Stencil.Decimal.Reading
import Stencil.Toml.Datum

/-!
Contract: data that are written without quotes and brackets.

Owns:
- whole numbers in four bases, numbers with a fraction or an exponent, and truth values;
- dates and times, which are checked and kept as texts.

Does not own: where a word ends (`Stencil.Toml.Document`).
-/

set_option autoImplicit false

namespace Stencil.Toml

/-! ## Numbers -/

/-- Digits without the underscores between them. There is at least one digit, and an underscore
stands between digits only. -/
def plainDigits? (isDigit : Char → Bool) : List Char → Option (List Char)
  | [] => none
  | [c] => if isDigit c then some [c] else none
  | c :: '_' :: rest => if isDigit c then (plainDigits? isDigit rest).map (c :: ·) else none
  | c :: rest => if isDigit c then (plainDigits? isDigit rest).map (c :: ·) else none

/-- The decimal digits of a whole number; only zero itself begins with one. -/
def wholeDigits? (word : List Char) : Option (List Char) :=
  match plainDigits? Char.isDigit word with
  | some ('0' :: _ :: _) => none
  | digits => digits

/-- The value of a digit in any base up to sixteen. -/
def digitValue (c : Char) : Nat :=
  if c.isDigit then c.toNat - '0'.toNat else c.toLower.toNat - 'a'.toNat + 10

/-- Whether a character is a digit in a base. -/
def isDigitIn (base : Nat) (c : Char) : Bool := c.isAlphanum && digitValue c < base

def valueIn (base : Nat) (digits : List Char) : Nat :=
  digits.foldl (fun value c => value * base + digitValue c) 0

def inBase? (base : Nat) (word : List Char) : Option Nat :=
  (plainDigits? (isDigitIn base) word).map (valueIn base)

def word? (value : Int) : Option Datum :=
  if Decimal.minInt ≤ value ∧ value ≤ Decimal.maxInt then some (.int value) else none

/-- The sign of a number and what follows it. -/
def signed : List Char → Bool × List Char
  | '+' :: rest => (false, rest)
  | '-' :: rest => (true, rest)
  | rest => (false, rest)

def integer? (word : List Char) : Option Datum :=
  match word with
  | '0' :: 'x' :: digits => (inBase? 16 digits).bind fun value => word? value
  | '0' :: 'o' :: digits => (inBase? 8 digits).bind fun value => word? value
  | '0' :: 'b' :: digits => (inBase? 2 digits).bind fun value => word? value
  | _ =>
      let (negative, digits) := signed word
      (wholeDigits? digits).bind fun digits =>
        let value : Int := Decimal.digitsValue 0 digits
        word? (if negative then -value else value)

/-- The exponent of a number, with its letter. -/
def exponentText? : List Char → Option (List Char)
  | [] => some []
  | _ :: rest =>
      let (negative, digits) := signed rest
      (plainDigits? Char.isDigit digits).map fun digits =>
        (if negative then ['e', '-'] else ['e']) ++ digits

/-- A number with a fraction or an exponent, without its sign. -/
def decimalText? (word : List Char) : Option (List Char) := do
  let isMark (c : Char) : Bool := c == 'e' || c == 'E'
  let mantissa := word.takeWhile fun c => !isMark c
  let exponent := word.dropWhile fun c => !isMark c
  let whole ← wholeDigits? (mantissa.takeWhile (· ≠ '.'))
  let fraction ← match mantissa.dropWhile (· ≠ '.') with
    | [] => some []
    | _ :: digits => (plainDigits? Char.isDigit digits).map ('.' :: ·)
  if fraction.isEmpty && exponent.isEmpty then none
  else return whole ++ fraction ++ (← exponentText? exponent)

/-- A floating-point number without its sign. Only the word for it is infinite; digits have to stand
for a number in range. -/
def magnitude? (word : List Char) : Option Float :=
  if word = ['i', 'n', 'f'] then some (1.0 / 0.0)
  else if word = ['n', 'a', 'n'] then some (0.0 / 0.0)
  else ((decimalText? word).bind Decimal.float?).filter Float.isFinite

def float? (word : List Char) : Option Datum :=
  let (negative, rest) := signed word
  (magnitude? rest).map fun value => .float (if negative then -value else value)

/-! ## Dates and times -/

/-- A number of exactly so many digits, and what follows it. -/
def digits? : Nat → Nat → List Char → Option (Nat × List Char)
  | 0, value, rest => some (value, rest)
  | count + 1, value, c :: rest =>
      if c.isDigit then digits? count (value * 10 + digitValue c) rest else none
  | _ + 1, _, [] => none

def skip? (expected : Char) : List Char → Option (List Char)
  | c :: rest => if c = expected then some rest else none
  | [] => none

def isLeap (year : Nat) : Bool := year % 4 == 0 && (year % 100 != 0 || year % 400 == 0)

/-- The number of days of a month; none for one that is not in the calendar. -/
def monthLength (year month : Nat) : Nat :=
  match month with
  | 2 => if isLeap year then 29 else 28
  | 4 => 30
  | 6 => 30
  | 9 => 30
  | 11 => 30
  | _ => if 1 ≤ month ∧ month ≤ 12 then 31 else 0

def afterDate? (word : List Char) : Option (List Char) := do
  let (year, rest) ← digits? 4 0 word
  let (month, rest) ← digits? 2 0 (← skip? '-' rest)
  let (day, rest) ← digits? 2 0 (← skip? '-' rest)
  if 1 ≤ day ∧ day ≤ monthLength year month then some rest else none

/-- The digits that count in a fraction of a second: nine at most, and no zeros at the end but one
that stands alone. -/
def secondFraction (digits : List Char) : List Char :=
  match ((digits.take 9).reverse.dropWhile (· == '0')).reverse with
  | [] => ['0']
  | counting => counting

/-- A fraction of a second, if there is one, and what follows it. -/
def fraction? : List Char → Option (List Char × List Char)
  | '.' :: rest =>
      match rest.takeWhile Char.isDigit with
      | [] => none
      | digits => some ('.' :: secondFraction digits, rest.dropWhile Char.isDigit)
  | rest => some ([], rest)

/-- The seconds of a time, which may be missing, and what follows them. -/
def seconds? : List Char → Option (List Char × List Char)
  | ':' :: rest => do
      let (second, afterSecond) ← digits? 2 0 rest
      if second ≤ 60 then
        let (fraction, afterFraction) ← fraction? afterSecond
        return (':' :: rest.take 2 ++ fraction, afterFraction)
      else none
  | rest => some ([], rest)

def time? (word : List Char) : Option (List Char × List Char) := do
  let (hour, rest) ← digits? 2 0 word
  let (minute, rest) ← digits? 2 0 (← skip? ':' rest)
  if hour ≤ 23 ∧ minute ≤ 59 then
    let (seconds, rest) ← seconds? rest
    return (word.take 5 ++ seconds, rest)
  else none

/-- The distance of a time from the reference time; none at all has the sign of the times ahead. -/
def offset? (word : List Char) : Option (List Char) :=
  match word with
  | [] => some []
  | ['z'] => some ['Z']
  | ['Z'] => some ['Z']
  | sign :: distance => do
      let (hour, rest) ← digits? 2 0 distance
      let (minute, rest) ← digits? 2 0 (← skip? ':' rest)
      if (sign == '+' || sign == '-') && hour ≤ 23 && minute ≤ 59 && rest.isEmpty then
        return (if hour = 0 ∧ minute = 0 then '+' else sign) :: distance
      else none

/-- A date, a time, or both, in the one way in which it is kept. -/
def moment? (word : List Char) : Option (List Char) :=
  match afterDate? word with
  | some [] => some word
  | some (mark :: clock) => do
      if mark == 'T' || mark == 't' then
        let (time, rest) ← time? clock
        return word.take 10 ++ 'T' :: time ++ (← offset? rest)
      else none
  | none => do
      let (time, rest) ← time? word
      if rest.isEmpty then return time else none

/-! ## Words -/

def scalar? (word : List Char) : Option Datum :=
  if word = ['t', 'r', 'u', 'e'] then some (.bool true)
  else if word = ['f', 'a', 'l', 's', 'e'] then some (.bool false)
  else
    match moment? word with
    | some moment => some (.text (String.ofList moment))
    | none => (integer? word).orElse fun _ => float? word

end Stencil.Toml
