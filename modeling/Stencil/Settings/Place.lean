import Stencil.Decimal.Reading
import Stencil.Toml.Datum

/-!
Contract: places inside data.

Owns:
- the steps from a datum to one of its parts, and how a key writes them;
- changing the part at a place, which always succeeds because it makes way for itself.

A step to an entry turns what is no table into one, and a step to an element turns what is no list
into one. Elements that were not there before are gaps. An element may be counted from the end; one
before the first is put in front of it.

Does not own: which parts are changed (`Stencil.Settings.Merge`).
-/

set_option autoImplicit false

namespace Stencil.Settings

open Stencil.Toml (Datum)

inductive Step where
  /-- To the entry of a table. -/
  | entry (key : String)
  /-- To the element of a list, counted from the end below zero. -/
  | element (index : Int)
deriving DecidableEq, Repr

/-! ## Keys -/

/-- Whether a character may stand in the names of a place. -/
def isNameChar (c : Char) : Bool := c.isAlphanum || c == '_' || c == '-'

def entryStep? (text : List Char) : Option (Step × List Char) :=
  match text.takeWhile isNameChar with
  | [] => none
  | name => some (.entry (String.ofList name), text.dropWhile isNameChar)

private def withoutBlanks (text : List Char) : List Char :=
  text.dropWhile fun c => c == ' ' || c == '\t'

/-- A step to an element, behind the bracket that opens it, and what follows it. Blanks may stand
around the number, which has to be one of 64 bits. -/
def elementStep? (text : List Char) : Option (Step × List Char) := do
  let text := withoutBlanks text
  let negative := text.head? == some '-'
  let digits := if negative then text.drop 1 else text
  let count ← Decimal.natural? (digits.takeWhile Char.isDigit)
  let index : Int := if negative then -count else count
  match withoutBlanks (digits.dropWhile Char.isDigit) with
  | ']' :: rest =>
      if Decimal.minInt ≤ index ∧ index ≤ Decimal.maxInt then some (.element index, rest) else none
  | _ => none

/-- The steps that follow the first one: names behind dots, and numbers in brackets. `limit` bounds
their number. -/
def laterSteps? : Nat → List Char → Option (List Step)
  | _, [] => some []
  | 0, _ => none
  | limit + 1, '.' :: text => do
      let (step, rest) ← entryStep? text
      return step :: (← laterSteps? limit rest)
  | limit + 1, '[' :: text => do
      let (step, rest) ← elementStep? text
      return step :: (← laterSteps? limit rest)
  | _ + 1, _ => none

/-- The steps that a key writes. A key that writes none is the name of an entry itself. -/
def stepsOf (key : String) : List Step :=
  let written := do
    let (first, rest) ← entryStep? key.toList
    return first :: (← laterSteps? rest.length rest)
  written.getD [.entry key]

/-! ## Parts -/

/-- The entries of a table; what is no table counts as an empty one. -/
def entriesOf (datum : Datum) : Table Datum := datum.entries?.getD []

/-- The elements of a list; what is no list counts as an empty one. -/
def elementsOf : Datum → List Datum
  | .list elements => elements
  | _ => []

/-- What stands in a place where nothing has been put: an empty list, which is no text, number,
truth value or table. -/
def gap : Datum := .list []

/-- Changes the element of a list, with gaps on the way to it. -/
def changeElement (change : Datum → Datum) (index : Int) (elements : List Datum) : List Datum :=
  let place := if index < 0 then elements.length + index else index
  if place < 0 then change gap :: List.replicate (place.natAbs - 1) gap ++ elements
  else
    let place := place.toNat
    (elements ++ List.replicate (place + 1 - elements.length) gap).modify place change

def changeAt (change : Datum → Datum) : List Step → Datum → Datum
  | [], datum => change datum
  | .entry key :: rest, datum =>
      let entries := entriesOf datum
      let part := (Table.lookup? entries key).getD gap
      .table (Table.put entries key (changeAt change rest part))
  | .element index :: rest, datum =>
      .list (changeElement (changeAt change rest) index (elementsOf datum))

end Stencil.Settings
