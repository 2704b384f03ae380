import Stencil.Syntax.Expr

/-!
Contract: the places a value can be assigned to.

Owns:
- targets and the names they bind;
- reading an expression as a target.

Does not own: what assigning does (`Stencil.Render.Assign`).
-/

set_option autoImplicit false

namespace Stencil.Syntax

open Stencil.Text (Span)

/-- A place for a value: a name, several places for the items of a sequence, or a part of a value
that is already there. -/
inductive Target where
  | name (name : String) (span : Span)
  | tuple (items : List Target) (span : Span)
  | attribute (value : Expr) (attr : String) (span : Span)
  | item (value index : Expr) (span : Span)
deriving Repr

namespace Target

/-- The part of the template the target was read from. -/
def span : Target → Span
  | .name _ span => span
  | .tuple _ span => span
  | .attribute _ _ span => span
  | .item _ _ span => span

mutual

/-- The names that an assignment binds, in the order they are written. -/
def names : Target → List String
  | .name bound _ => [bound]
  | .tuple items _ => namesOfAll items
  | .attribute _ _ _ => []
  | .item _ _ _ => []

/-- The names that all of several targets bind. -/
def namesOfAll : List Target → List String
  | [] => []
  | target :: rest => target.names ++ namesOfAll rest

end

mutual

/-- An expression as a target. The error is the span of the first part that cannot be assigned
to. -/
def ofExpr : Expr → Except Span Target
  | .name bound span => .ok (.name bound span)
  | .tuple items span =>
      match ofExprs items with
      | .ok targets => .ok (.tuple targets span)
      | .error bad => .error bad
  | .group inner _ => ofExpr inner
  | .attribute value attr span => .ok (.attribute value attr span)
  | .item value index span => .ok (.item value index span)
  | other => .error other.span

def ofExprs : List Expr → Except Span (List Target)
  | [] => .ok []
  | expr :: rest =>
      match ofExpr expr with
      | .error bad => .error bad
      | .ok target =>
          match ofExprs rest with
          | .error bad => .error bad
          | .ok targets => .ok (target :: targets)

end

end Target

end Stencil.Syntax
