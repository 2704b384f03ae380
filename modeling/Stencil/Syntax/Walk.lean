import Stencil.Syntax.Node

/-!
Contract: every part of a tree, once, in the order it is written.

Owns:
- the sequence of statements, expressions and targets of a tree.

A conditional expression is written with its value first, so its value comes before its test. The
parameters of a call block are not part of the sequence, nor are names that are plain text.

Does not own: the tables of blocks and macros (`Stencil.Syntax.Definitions`).
-/

set_option autoImplicit false

namespace Stencil.Syntax

inductive Part where
  | node (node : Node)
  | expr (expr : Expr)
  | target (target : Target)

mutual

/-- An expression and all expressions inside it. -/
def Expr.parts (expr : Expr) : List Part :=
  .expr expr :: match expr with
    | .literal _ _ => []
    | .name _ _ => []
    | .group inner _ => inner.parts
    | .unary _ operand _ => operand.parts
    | .binary _ left right _ => left.parts ++ right.parts
    | .membership _ element container _ => element.parts ++ container.parts
    | .conditional test whenTrue otherwise _ =>
        whenTrue.parts ++ test.parts ++ match otherwise with
          | some otherwise => otherwise.parts
          | none => []
    | .call callee args _ => callee.parts ++ partsOfExprs args
    | .filter value _ args _ _ => value.parts ++ partsOfExprs args
    | .test value _ _ args _ => value.parts ++ partsOfExprs args
    | .attribute value _ _ => value.parts
    | .item value index _ => value.parts ++ index.parts
    | .list items _ => partsOfExprs items
    | .tuple items _ => partsOfExprs items
    | .dict entries _ => partsOfEntries entries
    | .keyword _ value _ => value.parts
    | .missing _ => []

def partsOfExprs : List Expr → List Part
  | [] => []
  | expr :: rest => expr.parts ++ partsOfExprs rest

/-- The parts of the keys and values of a dictionary. -/
def partsOfEntries : List (Expr × Expr) → List Part
  | [] => []
  | (key, value) :: rest => key.parts ++ value.parts ++ partsOfEntries rest

end

mutual

/-- A target and all targets and expressions inside it. -/
def Target.parts (target : Target) : List Part :=
  .target target :: match target with
    | .name _ _ => []
    | .tuple items _ => partsOfTargets items
    | .attribute value _ _ => value.parts
    | .item value index _ => value.parts ++ index.parts

def partsOfTargets : List Target → List Part
  | [] => []
  | target :: rest => target.parts ++ partsOfTargets rest

end

/-- The parts of an expression that may be there. -/
def partsOfOptional : Option Expr → List Part
  | some expr => expr.parts
  | none => []

/-- The parts of the arguments of several filters. -/
def partsOfFilters (filters : List FilterCall) : List Part :=
  filters.flatMap fun filter => partsOfExprs filter.args

mutual

def Node.parts (node : Node) : List Part :=
  .node node :: match node with
    | .text _ _ => []
    | .verbatim _ _ => []
    | .comment _ _ => []
    | .output value _ => value.parts
    | .choose branches otherwise _ =>
        partsOfBranches branches ++ match otherwise with
          | some body => partsOfNodes body
          | none => []
    | .each target items condition body otherwise _ =>
        target.parts ++ items.parts ++ partsOfOptional condition ++ partsOfNodes body ++
          match otherwise with
          | some body => partsOfNodes body
          | none => []
    | .assign target value _ => target.parts ++ value.parts
    | .capture target filters body _ =>
        target.parts ++ partsOfFilters filters ++ partsOfNodes body
    | .block _ body _ => partsOfNodes body
    | .inherit template _ => template.parts
    | .embed template _ _ _ => template.parts
    | .importAs template _ _ _ => template.parts
    | .importNames template _ _ _ => template.parts
    | .define _ params body _ =>
        (params.flatMap fun param => partsOfOptional param.default) ++ partsOfNodes body
    | .callBlock call _ body _ => call.parts ++ partsOfNodes body
    | .withBlock bindings body _ =>
        (bindings.flatMap fun binding => binding.target.parts ++ binding.value.parts) ++
          partsOfNodes body
    | .filterBlock filters body _ => partsOfFilters filters ++ partsOfNodes body
    | .custom _ args body _ =>
        partsOfExprs args ++ match body with
          | some body => partsOfNodes body
          | none => []

def partsOfNodes : List Node → List Part
  | [] => []
  | node :: rest => node.parts ++ partsOfNodes rest

def partsOfBranches : List Branch → List Part
  | [] => []
  | .mk test body _ :: rest => test.parts ++ partsOfNodes body ++ partsOfBranches rest

end

end Stencil.Syntax
