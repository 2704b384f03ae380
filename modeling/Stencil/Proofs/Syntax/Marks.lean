import Stencil.Proofs.Syntax.Inner

/-!
Contract: where the parts of a tree stand.

Owns:
- the spans of an expression, a target and a statement, with those of everything inside;
- the spans inside bodies that are handed around: those of macros, and those with parameters of call
  blocks.

Does not own: what is reported at a span (`Stencil.Render.Problem`).
-/

set_option autoImplicit false

namespace Stencil.Syntax

open Stencil.Text (Span)

/-- Whether an expression, or one inside it, stands at a span. -/
inductive Expr.Marks : Expr → Span → Prop where
  | own (expr : Expr) : Marks expr expr.span
  | filter (value : Expr) (name : String) (args : List Expr) (callSpan span : Span) :
      Marks (.filter value name args callSpan span) callSpan
  | inside {expr part : Expr} {span : Span} (member : part ∈ expr.children)
      (marks : Marks part span) : Marks expr span

inductive Target.Marks : Target → Span → Prop where
  | own (target : Target) : Marks target target.span
  | expr {target : Target} {expr : Expr} {span : Span} (member : expr ∈ target.exprs)
      (marks : expr.Marks span) : Marks target span
  | inside {items : List Target} {whole : Span} {item : Target} {span : Span}
      (member : item ∈ items) (marks : Marks item span) : Marks (.tuple items whole) span

namespace Node

/-- The targets that a statement assigns to. -/
def targets : Node → List Target
  | .each target _ _ _ _ _ => [target]
  | .assign target _ _ => [target]
  | .capture target _ _ _ => [target]
  | .withBlock bindings _ _ => bindings.map Binding.target
  | _ => []

/-- The filters that a statement sends a body through. -/
def filters : Node → List FilterCall
  | .capture _ filters _ _ => filters
  | .filterBlock filters _ _ => filters
  | _ => []

/-- The expressions inside of the targets of a statement are expressions of it. -/
theorem mem_exprs_of_targets {node : Node} {target : Target} {expr : Expr}
    (member : target ∈ node.targets) (inside : expr ∈ target.exprs) : expr ∈ node.exprs := by
  cases node with
  | each | assign | capture =>
      obtain rfl := List.mem_singleton.mp member
      exact List.mem_append_left _ inside
  | withBlock bindings body span =>
      obtain ⟨binding, isBinding, rfl⟩ := List.mem_map.mp member
      exact List.mem_flatMap.mpr ⟨binding, isBinding, List.mem_append_left _ inside⟩
  | _ => cases member

/-- The arguments of the filters of a statement are expressions of it. -/
theorem mem_exprs_of_filters {node : Node} {call : FilterCall} {arg : Expr}
    (member : call ∈ node.filters) (isArg : arg ∈ call.args) : arg ∈ node.exprs := by
  have isAny : arg ∈ node.filters.flatMap FilterCall.args :=
    List.mem_flatMap.mpr ⟨call, member, isArg⟩
  cases node with
  | capture => exact List.mem_append_right _ isAny
  | filterBlock => exact isAny
  | _ => cases member

/-- The names that a statement imports. -/
def imports : Node → List ImportName
  | .importNames _ names _ _ => names
  | _ => []

/-- Whether a statement hands its body around instead of rendering it on the spot. -/
def isLender : Node → Bool
  | .define _ _ _ _ => true
  | .callBlock _ params _ _ => !params.isEmpty
  | _ => false

/-- Whether a statement, or a part of it, stands at a span. -/
inductive Marks : Node → Span → Prop where
  | own (node : Node) : Marks node node.span
  | expr {node : Node} {expr : Expr} {span : Span} (member : expr ∈ node.exprs)
      (marks : expr.Marks span) : Marks node span
  | target {node : Node} {target : Target} {span : Span} (member : target ∈ node.targets)
      (marks : target.Marks span) : Marks node span
  | filter {node : Node} {call : FilterCall} (member : call ∈ node.filters) : Marks node call.span
  | wanted {node : Node} {wanted : ImportName} (member : wanted ∈ node.imports) :
      Marks node wanted.span
  | default {node : Node} {param : Param} {expr : Expr} {span : Span} (member : param ∈ node.params)
      (isDefault : param.default = some expr) (marks : expr.Marks span) : Marks node span
  | inside {node inner : Node} {body : List Node} {span : Span} (isBody : body ∈ node.bodies)
      (member : inner ∈ body) (marks : Marks inner span) : Marks node span

/-- Whether a span is inside a body or a default that a statement, or one inside it, hands around. -/
inductive Lends : Node → Span → Prop where
  | default {node : Node} {param : Param} {expr : Expr} {span : Span} (member : param ∈ node.params)
      (isDefault : param.default = some expr) (marks : expr.Marks span) : Lends node span
  | body {node inner : Node} {body : List Node} {span : Span} (isLender : node.isLender = true)
      (isBody : body ∈ node.bodies) (member : inner ∈ body) (marks : inner.Marks span) :
      Lends node span
  | inside {node inner : Node} {body : List Node} {span : Span} (isBody : body ∈ node.bodies)
      (member : inner ∈ body) (lends : Lends inner span) : Lends node span

end Node

end Stencil.Syntax
