import Stencil.Value.Display

/-!
Contract: the parts of a value.

Owns:
- the items a loop visits, and how many parts a value has;
- attributes and items by name, key and index.

Does not own: changing a part (`Stencil.Value.Update`).
-/

set_option autoImplicit false

namespace Stencil.Value

/-- The place that an index stands for among `length` items; a negative one counts from the end. -/
def resolveIndex (index : Int) (length : Nat) : Option Nat :=
  let place := if index < 0 then index + length else index
  if 0 ≤ place ∧ place < length then some place.toNat else none

/-- The characters of a text, each as a text. -/
def characters (text : String) : List Value := text.toList.map fun c => .text c.toString

/-- The items a loop visits: the items of a sequence, the keys of a map, the characters of a text,
and none of nothing. -/
def iterate? : Value → Option (List Value)
  | .nil => some []
  | .seq items => some items
  | .map entries => some (entries.map fun entry => .text entry.1)
  | .text value => some (characters value)
  | .object _ _ _ _ items _ _ => items
  | .bool _ => none
  | .int _ => none
  | .float _ => none

/-- The number of items, entries or characters. -/
def length? : Value → Option Nat
  | .text value => some value.length
  | .seq items => some items.length
  | .map entries => some entries.length
  | _ => none

def attribute? (value : Value) (name : String) : Option Value :=
  match value with
  | .map entries => Table.lookup? entries name
  | .object _ _ attributes _ _ _ _ => Table.lookup? attributes name
  | _ => none

/-- The part of a value under an index. Sequences and texts take whole numbers, maps and objects
the text of any value. -/
def item? (value index : Value) : Option Value :=
  match value with
  | .seq items => do
      let index ← index.toInt?
      let place ← resolveIndex index items.length
      items[place]?
  | .text content => do
      let index ← index.toInt?
      let place ← resolveIndex index content.length
      let c ← content.toList[place]?
      return .text c.toString
  | .map entries => Table.lookup? entries index.display
  | .object _ _ attributes _ _ _ _ => Table.lookup? attributes index.display
  | _ => none

end Stencil.Value
