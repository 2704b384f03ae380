import Stencil.Text.Span

/-!
Contract: expressions, the values a template writes down.

Owns:
- literals, operators and the tree of expressions with the span of each;
- filters as they are applied in expressions and in tags.

Does not own: what an expression is worth (`Stencil.Render.Evaluate`).
-/

set_option autoImplicit false

namespace Stencil.Syntax

open Stencil.Text (Span)

inductive Literal where
  | none
  | bool (value : Bool)
  | int (value : Int)
  | float (value : Float)
  | text (value : String)
deriving Repr

inductive UnaryOp where
  | not
  | negative
  | positive
deriving DecidableEq, Repr

inductive BinaryOp where
  | or
  | and
  | equal
  | notEqual
  | less
  | lessEqual
  | greater
  | greaterEqual
  | concat
  | add
  | subtract
  | multiply
  | divide
  | floorDivide
  | modulo
  | power
deriving DecidableEq, Repr

/-- How an operator of two operands is written. -/
def BinaryOp.symbol : BinaryOp → String
  | .or => "or"
  | .and => "and"
  | .equal => "=="
  | .notEqual => "!="
  | .less => "<"
  | .lessEqual => "<="
  | .greater => ">"
  | .greaterEqual => ">="
  | .concat => "~"
  | .add => "+"
  | .subtract => "-"
  | .multiply => "*"
  | .divide => "/"
  | .floorDivide => "//"
  | .modulo => "%"
  | .power => "**"

/-- An expression. Parentheses are kept as a node of their own; `missing` stands where an operand
could not be read. -/
inductive Expr where
  | literal (value : Literal) (span : Span)
  | name (name : String) (span : Span)
  | group (inner : Expr) (span : Span)
  | unary (op : UnaryOp) (operand : Expr) (span : Span)
  | binary (op : BinaryOp) (left right : Expr) (span : Span)
  | membership (negated : Bool) (element container : Expr) (span : Span)
  | conditional (test whenTrue : Expr) (otherwise : Option Expr) (span : Span)
  | call (callee : Expr) (args : List Expr) (span : Span)
  | filter (value : Expr) (name : String) (args : List Expr) (callSpan span : Span)
  | test (value : Expr) (negated : Bool) (name : String) (args : List Expr) (span : Span)
  | attribute (value : Expr) (attr : String) (span : Span)
  | item (value index : Expr) (span : Span)
  | list (items : List Expr) (span : Span)
  | tuple (items : List Expr) (span : Span)
  | dict (entries : List (Expr × Expr)) (span : Span)
  | keyword (name : String) (value : Expr) (span : Span)
  | missing (span : Span)
deriving Repr

namespace Expr

instance : Inhabited Expr := ⟨.missing default⟩

/-- The part of the template the expression was read from. -/
def span : Expr → Span
  | .literal _ span => span
  | .name _ span => span
  | .group _ span => span
  | .unary _ _ span => span
  | .binary _ _ _ span => span
  | .membership _ _ _ span => span
  | .conditional _ _ _ span => span
  | .call _ _ span => span
  | .filter _ _ _ _ span => span
  | .test _ _ _ _ span => span
  | .attribute _ _ span => span
  | .item _ _ span => span
  | .list _ span => span
  | .tuple _ span => span
  | .dict _ span => span
  | .keyword _ _ span => span
  | .missing span => span

/-- Whether the expression stands for an operand that could not be read. -/
def isMissing : Expr → Bool
  | .missing _ => true
  | _ => false

end Expr

/-- A filter with its arguments, as it follows a bar. -/
structure FilterCall where
  name : String
  args : List Expr
  span : Span
deriving Repr

/-- The expression that applies a filter to a value. -/
def FilterCall.on (call : FilterCall) (value : Expr) : Expr :=
  .filter value call.name call.args call.span (value.span.cover call.span)

end Stencil.Syntax
