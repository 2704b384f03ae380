import Stencil.Render.Action

/-!
Contract: assignments to targets.

Owns:
- names, which are bound in the innermost frame;
- tuples, which take a value apart;
- parts of variables, which are changed where the variable is bound.

Does not own: how a part of a value is changed (`Stencil.Value.Update`).
-/

set_option autoImplicit false

namespace Stencil.Render

open Stencil.Syntax (Expr Target)
open Stencil.Text (Span)

namespace Action

/-- The variable and the path that an expression stands for. The indices on the way are evaluated
from the variable outwards. -/
def pathOf? : Expr → Action (Option (String × List Value.Key))
  | .name root _ => return some (root, [])
  | .group inner _ => pathOf? inner
  | .attribute value attr _ => do
      match ← pathOf? value with
      | some (root, path) => return some (root, path ++ [.name attr])
      | none => return none
  | .item value index _ => do
      match ← pathOf? value with
      | some (root, path) => return some (root, path ++ [.index (← valueOf index)])
      | none => return none
  | _ => return none

/-- Changes the part of a variable that a base expression and a last step stand for. -/
def storeAt (base : Expr) (key : Value.Key) (value : Value) (span : Span) : Action Unit := do
  match ← pathOf? base with
  | none => problem (.notAssignable key.describe) span
  | some (root, path) =>
      match ← Action.store root path key value .done with
      | none => return ()
      | some refused => problem (.notAssignable refused) span

mutual

/-- Assigns a value to a target. A tuple takes the items of the value in order and nothing where
there are too few; a tuple without items takes anything. -/
def assign : Target → Value → Action Unit
  | .name name _, value => bindTo name value
  | .tuple [] _, _ => return ()
  | .tuple items span, value => do
      match value.iterate? with
      | none =>
          problem (.notIterable value.typeName) span
          assignAll items []
      | some values =>
          if values.length ≠ items.length then
            problem (.unpackMismatch items.length values.length) span
          assignAll items values
  | .attribute base attr span, value => storeAt base (.name attr) value span
  | .item base index span, value => do
      let index ← valueOf index
      storeAt base (.index index) value span

def assignAll : List Target → List Value → Action Unit
  | [], _ => return ()
  | target :: rest, values => do
      assign target (values.headD .nil)
      assignAll rest values.tail

end

end Action

end Stencil.Render
