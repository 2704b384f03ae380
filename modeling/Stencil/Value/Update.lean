import Stencil.Value.Access

/-!
Contract: changing a part of a value.

Owns:
- the keys that lead from a value to one of its parts;
- putting a new value at the end of a path, and why that can be refused.

A path leads through maps by the text of its keys and through sequences by index. Only the last key
may be new, and only in a map.

Does not own: which variables can be changed (`Stencil.Render.Assign`).
-/

set_option autoImplicit false

namespace Stencil.Value

/-- A step from a value to one of its parts: by name, or by an evaluated index. -/
inductive Key where
  | name (name : String)
  | index (index : Value)

namespace Key

/-- The name under which a map holds the part. -/
def text : Key → String
  | .name text => text
  | .index value => value.display

def describe : Key → String
  | .name text => "attribute '" ++ text ++ "'"
  | .index value => "item " ++ value.display

/-- The place among `length` items that the step leads to; a name leads to none. -/
def place? (key : Key) (length : Nat) : Option Nat :=
  match key with
  | .name _ => none
  | .index value => value.toInt?.bind fun number => resolveIndex number length

end Key

/-- Why a value cannot be put where a path leads. -/
inductive Refusal where
  /-- A part on the way is not there. -/
  | missing (key : Key)
  /-- The last step leads outside a sequence. -/
  | outOfRange (key : Key)
  /-- The last step starts from a value that has no parts to change. -/
  | container (key : Key) (type : String)

def Refusal.describe : Refusal → String
  | .missing key => key.describe ++ " of a missing value"
  | .outOfRange key => key.describe ++ ", which is out of range"
  | .container key type => key.describe ++ " of a '" ++ type ++ "' value"

/-- The part of a map or a sequence that a step leads to. -/
def part? (value : Value) (key : Key) : Option Value :=
  match value with
  | .map entries => Table.lookup? entries key.text
  | .seq items => (key.place? items.length).bind fun place => items[place]?
  | _ => none

/-- The value with another part where a step leads. -/
def withPart (value : Value) (key : Key) (part : Value) : Value :=
  match value with
  | .map entries => .map (Table.put entries key.text part)
  | .seq items =>
      match key.place? items.length with
      | some place => .seq (items.set place part)
      | none => .seq items
  | other => other

def storeHere (value : Value) (key : Key) (new : Value) : Except Refusal Value :=
  match value, key with
  | .map _, _ => .ok (value.withPart key new)
  | .seq items, .index _ =>
      if (key.place? items.length).isSome then .ok (value.withPart key new)
      else .error (.outOfRange key)
  | other, _ => .error (.container key other.typeName)

/-- Puts a value where a path leads. The empty path leads to the value itself. -/
def store (value : Value) (path : List Key) (new : Value) : Except Refusal Value :=
  match path with
  | [] => .ok new
  | [key] => value.storeHere key new
  | key :: rest =>
      match value.part? key with
      | none => .error (.missing key)
      | some part => (part.store rest new).map (value.withPart key)

theorem store_cons_cons (value : Value) (key next : Key) (rest : List Key) (new : Value) :
    value.store (key :: next :: rest) new =
      match value.part? key with
      | none => .error (.missing key)
      | some part => (part.store (next :: rest) new).map (value.withPart key) := rfl

end Stencil.Value
