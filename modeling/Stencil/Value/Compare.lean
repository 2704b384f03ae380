import Stencil.Value.Basic

/-!
Contract: when values are equal, and which of two comes first.

Owns:
- equality, which sees through the two kinds of number;
- the partial order of numbers, texts and sequences.

Does not own: the operators that use them (`Stencil.Value.Operate`).
-/

set_option autoImplicit false

namespace Stencil.Value

mutual

/-- Whether two values are equal. Whole and floating-point numbers are equal if their values as
floating-point numbers are; maps are equal whatever the order of their entries; objects are equal
to themselves only. -/
def same : Value → Value → Bool
  | .nil, .nil => true
  | .bool left, .bool right => left == right
  | .int left, .int right => left == right
  | .float left, .float right => left == right
  | .int left, .float right => Float.ofInt left == right
  | .float left, .int right => Float.ofInt right == left
  | .text left, .text right => left == right
  | .seq left, .seq right => sameItems left right
  | .map left, .map right => left.length == right.length && sameEntries left right
  | .object left _ _ _ _ _ _, .object right _ _ _ _ _ _ => left == right
  | _, _ => false

/-- Whether two sequences have equal items in the same order. -/
def sameItems : List Value → List Value → Bool
  | [], [] => true
  | left :: lefts, right :: rights => left.same right && sameItems lefts rights
  | _, _ => false

/-- Whether a map has an equal entry for each of the given ones. -/
def sameEntries : List (String × Value) → List (String × Value) → Bool
  | [], _ => true
  | (key, value) :: rest, entries =>
      (match Table.lookup? entries key with
        | some other => value.same other
        | none => false) && sameEntries rest entries

end

instance : BEq Value := ⟨same⟩

/-- The order of two floating-point numbers, if both are numbers. -/
def compareFloats (left right : Float) : Option Ordering :=
  if left < right then some .lt
  else if left > right then some .gt
  else if left == right then some .eq
  else none

/-- The order of two values as floating-point numbers. -/
def compareNumbers (left right : Value) : Option Ordering := do
  compareFloats (← left.toFloat?) (← right.toFloat?)

mutual

/-- The order of two values. Texts and sequences go by the first difference; numbers go by size.
Other values have no order. -/
def compare : Value → Value → Option Ordering
  | .text left, .text right => some (Ord.compare left right)
  | .seq left, .seq right => compareItems left right
  | .int left, .int right => some (Ord.compare left right)
  | left, right => compareNumbers left right

/-- The order of two sequences by their first difference; a sequence comes before its
continuations. -/
def compareItems : List Value → List Value → Option Ordering
  | [], [] => some .eq
  | [], _ :: _ => some .lt
  | _ :: _, [] => some .gt
  | left :: lefts, right :: rights =>
      match left.compare right with
      | none => none
      | some .eq => compareItems lefts rights
      | some unequal => some unequal

end

end Stencil.Value
