import Stencil.Render.Assign

/-!
Contract: loops.

Owns:
- which items a loop visits;
- the variable `loop`, by which a body knows where the loop is.

Does not own: the items a value is made of (`Stencil.Value.Access`).
-/

set_option autoImplicit false

namespace Stencil.Render

open Stencil.Syntax (Expr Node Target)

/-- What a body can know about its loop: `index` items of `length` come before this one. -/
def loopInfo (previous next : Option Value) (index length depth : Nat) : Table Value :=
  [("index", .int (index + 1)),
    ("index0", .int index),
    ("revindex", .int (length - index)),
    ("revindex0", .int (length - index - 1)),
    ("first", .bool (index == 0)),
    ("last", .bool (index + 1 == length)),
    ("length", .int length),
    ("previtem", previous.getD .nil),
    ("nextitem", next.getD .nil),
    ("depth", .int depth),
    ("depth0", .int (depth - 1))]

namespace Action

/-- The items that satisfy a condition, after some that do. The condition sees an item where the
target puts it, and nothing that it does there outlives it. -/
def selectAfter (target : Target) (condition : Expr) (kept : List Value) :
    List Value → Action (List Value)
  | [] => return kept.reverse
  | item :: rest => do
      let keep ← inSetting (.frame []) do
        assign target item
        return (← valueOf condition).isTruthy
      selectAfter target condition (if keep then item :: kept else kept) rest

def select (target : Target) (condition : Option Expr) (items : List Value) :
    Action (List Value) :=
  match condition with
  | none => return items
  | some condition => selectAfter target condition [] items

/-- The text of a body for one item after another, after the text of those before. A render that
has run out of steps visits no more items. -/
def visitAfter (target : Target) (body : List Node) (length : Nat) (text : String)
    (previous : Option Value) (index : Nat) : List Value → Action String
  | [] => return text
  | item :: rest => do
      let depth := (← view).place.loopDepth
      let info := loopInfo previous rest.head? index length depth
      let more ← inSetting (.frame [("loop", .map info)]) do
        assign target item
        textOf body
      let text := text ++ more
      if (← view).halted then return text
      else visitAfter target body length text (some item) (index + 1) rest

def textOfBody : Option (List Node) → Action String
  | some body => textOf body
  | none => return ""

/-- The text of a loop; that of the other body if there is nothing to visit. -/
def renderEach (target : Target) (items : Expr) (condition : Option Expr) (body : List Node)
    (otherwise : Option (List Node)) : Action String := do
  let value ← valueOf items
  match value.iterate? with
  | none =>
      problem (.notIterable value.typeName) items.span
      textOfBody otherwise
  | some found =>
      let visited ← select target condition found
      if visited.isEmpty then textOfBody otherwise
      else inSetting .loop (visitAfter target body visited.length "" none 0 visited)

end Action

end Stencil.Render
