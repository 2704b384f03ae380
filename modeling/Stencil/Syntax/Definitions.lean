import Stencil.Syntax.Node

/-!
Contract: the blocks and macros that a tree defines, wherever they stand in it.

Owns:
- the blocks and macros of a tree in the order they are written;
- the tables made of them: the first block of a name and the last macro of a name count.

The body of a macro is closed: neither blocks nor macros inside it belong to the tree's tables.

Does not own: the order in which templates override one another (`Stencil.Render.Inherit`).
-/

set_option autoImplicit false

namespace Stencil.Syntax

open Stencil.Text (Span)

structure BlockDefinition where
  name : String
  body : List Node
  span : Span

structure MacroDefinition where
  name : String
  params : List Param
  body : List Node
  span : Span

inductive Definition where
  | block (block : BlockDefinition)
  | macro_ (definition : MacroDefinition)

mutual

/-- The definitions a statement makes, in the order they are written. -/
def Node.definitions : Node → List Definition
  | .text _ _ => []
  | .verbatim _ _ => []
  | .comment _ _ => []
  | .output _ _ => []
  | .choose branches otherwise _ =>
      definitionsOfBranches branches ++ match otherwise with
        | some body => definitionsOfNodes body
        | none => []
  | .each _ _ _ body otherwise _ =>
      definitionsOfNodes body ++ match otherwise with
        | some body => definitionsOfNodes body
        | none => []
  | .assign _ _ _ => []
  | .capture _ _ body _ => definitionsOfNodes body
  | .block name body span => .block ⟨name, body, span⟩ :: definitionsOfNodes body
  | .inherit _ _ => []
  | .embed _ _ _ _ => []
  | .importAs _ _ _ _ => []
  | .importNames _ _ _ _ => []
  | .define name params body span => [.macro_ ⟨name, params, body, span⟩]
  | .callBlock _ _ body _ => definitionsOfNodes body
  | .withBlock _ body _ => definitionsOfNodes body
  | .filterBlock _ body _ => definitionsOfNodes body
  | .custom _ _ body _ =>
      match body with
      | some body => definitionsOfNodes body
      | none => []

/-- The definitions that several statements make. -/
def definitionsOfNodes : List Node → List Definition
  | [] => []
  | node :: rest => node.definitions ++ definitionsOfNodes rest

/-- The definitions that the branches of a choice make. -/
def definitionsOfBranches : List Branch → List Definition
  | [] => []
  | .mk _ body _ :: rest => definitionsOfNodes body ++ definitionsOfBranches rest

end

def blocksOf (nodes : List Node) : List BlockDefinition :=
  (definitionsOfNodes nodes).filterMap fun
    | .block block => some block
    | .macro_ _ => none

def macrosOf (nodes : List Node) : List MacroDefinition :=
  (definitionsOfNodes nodes).filterMap fun
    | .block _ => none
    | .macro_ definition => some definition

end Stencil.Syntax
