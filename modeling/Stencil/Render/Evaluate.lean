import Stencil.Render.Call

/-!
Contract: the values of expressions.

Owns:
- look-ups and what is reported when they fail;
- which operands are evaluated, and in which order;
- filters, tests, and whether something is defined.

Does not own: what operators make of their operands (`Stencil.Value.Operate`) and calls
(`Stencil.Render.Call`).
-/

set_option autoImplicit false

namespace Stencil.Render

open Stencil.Syntax (Expr FilterCall Literal)
open Stencil.Text (Span)

def literalValue : Literal → Value
  | .none => .nil
  | .bool value => .bool value
  | .int value => .int value
  | .float value => .float value
  | .text value => .text value

namespace Action

/-! ## Look-ups -/

def lookup (name : String) (span : Span) : Action Value := do
  match ← resolve name with
  | some value => return value
  | none =>
      failedLookup .variable_ (.unknownVariable name) span
      return .nil

/-- A part of a value. Its absence is reported, unless the value is nothing itself. -/
def partOr (part : Option Value) (base : Value) (cause : Problem) (span : Span) : Action Value :=
  match part with
  | some value => return value
  | none => do
      if !base.isNil then failedLookup .variable_ cause span
      return .nil

/-- The value that an operator gives; its refusal is reported. -/
def settle (result : Except Value.Fault Value) (span : Span) : Action Value :=
  match result with
  | .ok value => return value
  | .error fault => do
      problem (.fault fault) span
      return .nil

def valuesOf : List Expr → Action (List Value)
  | [] => return []
  | expr :: rest => do
      let value ← valueOf expr
      return value :: (← valuesOf rest)

/-- The entries of a map, added to those it has. -/
def entriesAfter (entries : Table Value) : List (Expr × Expr) → Action (Table Value)
  | [] => return entries
  | (key, value) :: rest => do
      let key ← valueOf key
      let value ← valueOf value
      entriesAfter (entries.put key.display value) rest

/-! ## Filters -/

/-- The value that a filter makes of another one. A filter that is not there passes the value
through. -/
def applyFilter (value : Value) (call : FilterCall) : Action Value := do
  let args ← argumentsOf call.args
  match (← registry).filter? call.name with
  | some filter => accept call.name (filter value args) call.span
  | none =>
      failedLookup .filter (.unknownFilter call.name) call.span
      return value

/-- The value that filters make of another one, one after another. -/
def applyFilters (value : Value) : List FilterCall → Action Value
  | [] => return value
  | call :: rest => do
      let value ← applyFilter value call
      applyFilters value rest

/-! ## Tests -/

/-- The value of a chain of names, attributes and items, up to the first one that is not there.
Nothing is reported for the steps of the chain. -/
def resolvePath? : Expr → Action (Option Value)
  | .name name _ => resolve name
  | .group inner _ => resolvePath? inner
  | .attribute value attr _ => do
      match ← resolvePath? value with
      | some base => return base.attribute? attr
      | none => return none
  | .item value index _ => do
      match ← resolvePath? value with
      | some base =>
          let index ← valueOf index
          return base.item? index
      | none => return none
  | other => do return some (← valueOf other)

/-- Whether an expression stands for something. A name can stand for a macro or imported macros,
too. -/
def isDefined (expr : Expr) : Action Bool := do
  match expr with
  | .name name _ =>
      let value ← resolve name
      let view ← view
      return value.isSome || view.macros.has name || view.namespaces.has name
  | other => return (← resolvePath? other).isSome

/-- Whether a value passes a test. No value passes one that is not there or fails. -/
def passes (value : Expr) (name : String) (args : List Expr) (span : Span) : Action Bool := do
  let value ← valueOf value
  let args ← argumentsOf args
  match (← registry).test? name with
  | some test =>
      match test value args with
      | .ok result => return result
      | .error reason =>
          problem (.callFailed name reason) span
          return false
  | none =>
      failedLookup .test (.unknownTest name) span
      return false

/-- Whether a test holds, before it is negated. -/
def holds (value : Expr) (name : String) (args : List Expr) (span : Span) : Action Bool :=
  if name = "defined" then isDefined value
  else if name = "undefined" then do return !(← isDefined value)
  else passes value name args span

/-! ## Expressions -/

def evaluate : Expr → Action Value
  | .literal value _ => return literalValue value
  | .name name span => lookup name span
  | .group inner _ => valueOf inner
  | .unary op operand span => do
      let value ← valueOf operand
      settle (Value.operateUnary op value) span
  | .binary .and left right _ => do
      let left ← valueOf left
      if left.isTruthy then valueOf right else return left
  | .binary .or left right _ => do
      let left ← valueOf left
      if left.isTruthy then return left else valueOf right
  | .binary op left right span => do
      let left ← valueOf left
      let right ← valueOf right
      settle (Value.operate op left right) span
  | .membership negated element container span => do
      let element ← valueOf element
      let container ← valueOf container
      settle ((Value.isIn element container).map fun found => .bool (found != negated)) span
  | .conditional test whenTrue otherwise _ => do
      let test ← valueOf test
      if test.isTruthy then valueOf whenTrue
      else
        match otherwise with
        | some otherwise => valueOf otherwise
        | none => return .nil
  | .call callee args span => callExpr callee args none span
  | .filter value name args callSpan _ => do
      let value ← valueOf value
      applyFilter value ⟨name, args, callSpan⟩
  | .test value negated name args span => do
      let result ← holds value name args span
      return .bool (result != negated)
  | .attribute value attr span => do
      let base ← valueOf value
      partOr (base.attribute? attr) base (.unknownAttribute base.typeName attr) span
  | .item value index span => do
      let base ← valueOf value
      let index ← valueOf index
      partOr (base.item? index) base (.unknownItem base.typeName index.display) span
  | .list items _ => do return .seq (← valuesOf items)
  | .tuple items _ => do return .seq (← valuesOf items)
  | .dict entries _ => do return .map (← entriesAfter [] entries)
  | .keyword _ value _ => valueOf value
  | .missing _ => return .nil

end Action

end Stencil.Render
