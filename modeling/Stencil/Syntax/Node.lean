import Stencil.Syntax.Target

/-!
Contract: the statements a template is made of.

Owns:
- the tree of statements with the span of each, and the whole template.

Does not own: how the tree is read from tokens (`Stencil.Grammar`) and what it renders to
(`Stencil.Render`).
-/

set_option autoImplicit false

namespace Stencil.Syntax

open Stencil.Text (Span)

/-- A name imported from another template, perhaps under another name. -/
structure ImportName where
  name : String
  boundAs : Option String
  span : Span
deriving DecidableEq, Repr

/-- The name under which the import is known. -/
def ImportName.localName (import_ : ImportName) : String := import_.boundAs.getD import_.name

/-- A parameter of a macro or of a call block. -/
structure Param where
  name : String
  default : Option Expr
  span : Span
deriving Repr

structure Binding where
  target : Target
  value : Expr
deriving Repr

mutual

inductive Node where
  /-- Text as it is printed. -/
  | text (content : String) (span : Span)
  /-- The body of a `raw` tag. -/
  | verbatim (content : String) (span : Span)
  /-- A value that is printed. -/
  | output (value : Expr) (span : Span)
  /-- The first branch whose test holds, or else the other body. -/
  | choose (branches : List Branch) (otherwise : Option (List Node)) (span : Span)
  /-- The body once for each item; the other body if there was none. -/
  | each (target : Target) (items : Expr) (condition : Option Expr) (body : List Node)
      (otherwise : Option (List Node)) (span : Span)
  /-- An assignment. -/
  | assign (target : Target) (value : Expr) (span : Span)
  /-- An assignment of what a body renders to. -/
  | capture (target : Target) (filters : List FilterCall) (body : List Node) (span : Span)
  /-- A part of the template that templates built on it can replace. -/
  | block (name : String) (body : List Node) (span : Span)
  /-- The template this one is built on. -/
  | inherit (template : Expr) (span : Span)
  /-- Another template, rendered in place. -/
  | embed (template : Expr) (withContext ignoreMissing : Bool) (span : Span)
  /-- The macros of another template under one name. -/
  | importAs (template : Expr) (boundAs : String) (withContext : Bool) (span : Span)
  /-- Some macros of another template. -/
  | importNames (template : Expr) (names : List ImportName) (withContext : Bool) (span : Span)
  /-- A macro's definition. -/
  | define (name : String) (params : List Param) (body : List Node) (span : Span)
  /-- A macro's call that hands the macro a body. -/
  | callBlock (call : Expr) (params : List Param) (body : List Node) (span : Span)
  /-- A body with assignments of its own. -/
  | withBlock (bindings : List Binding) (body : List Node) (span : Span)
  /-- A body whose text goes through filters. -/
  | filterBlock (filters : List FilterCall) (body : List Node) (span : Span)
  /-- Text that is not printed. -/
  | comment (content : String) (span : Span)
  /-- A tag that an extension has read. -/
  | custom (name : String) (args : List Expr) (body : Option (List Node)) (span : Span)

/-- A branch of a choice: its test and its body. -/
inductive Branch where
  | mk (test : Expr) (body : List Node) (span : Span)

end

namespace Branch

def test : Branch → Expr
  | .mk test _ _ => test

def body : Branch → List Node
  | .mk _ body _ => body

/-- The part of the template a branch was read from. -/
def span : Branch → Span
  | .mk _ _ span => span

end Branch

namespace Node

instance : Inhabited Node := ⟨.text "" default⟩

/-- The part of the template the statement was read from. -/
def span : Node → Span
  | .text _ span => span
  | .verbatim _ span => span
  | .output _ span => span
  | .choose _ _ span => span
  | .each _ _ _ _ _ span => span
  | .assign _ _ span => span
  | .capture _ _ _ span => span
  | .block _ _ span => span
  | .inherit _ span => span
  | .embed _ _ _ span => span
  | .importAs _ _ _ span => span
  | .importNames _ _ _ span => span
  | .define _ _ _ span => span
  | .callBlock _ _ _ span => span
  | .withBlock _ _ span => span
  | .filterBlock _ _ span => span
  | .comment _ span => span
  | .custom _ _ _ span => span

end Node

structure Template where
  name : Option String
  body : List Node
  span : Span

namespace Template

instance : Inhabited Template := ⟨⟨none, [], default⟩⟩

/-- The template this one is built on, and the tag that says so: the first such tag outside all
bodies. -/
def parent? (template : Template) : Option (Expr × Span) :=
  template.body.findSome? fun
    | .inherit parent span => some (parent, span)
    | _ => none

/-- The name a template goes by; one without a name has a name for show. -/
def displayName (template : Template) : String := template.name.getD "<template>"

end Template

end Stencil.Syntax
