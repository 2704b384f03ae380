import Stencil.Grammar.Hook
import Stencil.Host.Callable
import Stencil.Host.Loader

/-!
Contract: how a host renders the tags it has added to the language.

Owns:
- scripts, the requests by which a tag's text is made;
- what a script can learn about the environment of its render.

A script never sees the state of the render. Frames that it asks for are left again before it goes
on, so it cannot leave a render deeper than it found it.

Does not own: how the requests are carried out (`Stencil.Render.Statement`), and what an environment
shows of itself (`Stencil.Host.Describe`).
-/

set_option autoImplicit false

namespace Stencil.Host

open Stencil.Grammar (Register)
open Stencil.Report (Diagnostic)
open Stencil.Syntax (Expr Node)
open Stencil.Text (Span)

structure Strictness where
  undefined : Bool
  filters : Bool
  tests : Bool
  functions : Bool
deriving DecidableEq, Repr

def Strictness.none : Strictness := ⟨false, false, false, false⟩

def Strictness.all : Strictness := ⟨true, true, true, true⟩

/-- The settings of a render: what is reported, and after how many statements it stops. -/
structure Terms where
  strict : Strictness
  maxSteps : Option Nat
deriving DecidableEq, Repr

/-- What the environment of a render tells about itself: its settings, what it has under a name, the
methods of values, the loader, the added tags, and the text that shows it. Of a renderer it tells
only whether there is one; what that makes of a tag, a script gets by having the tag rendered. -/
structure Facade extends Terms where
  filter? : String → Option Filter
  test? : String → Option Test
  function? : String → Option Function
  hasRenderer : String → Bool
  global? : String → Option Value
  method? : Value → String → Option Method
  loader? : Option Loader
  tags : Register
  description : String

/-- What a host's tag asks of a render, request by request; each request hands its answer to the
rest of the script. -/
inductive TagScript where
  /-- The text of the tag. -/
  | done (text : String)
  /-- The value of an expression. -/
  | evaluate (expr : Expr) (next : Value → TagScript)
  /-- The text of statements, rendered where the tag stands. -/
  | render (body : List Node) (next : String → TagScript)
  /-- The text of statements, rendered in a frame of their own. -/
  | renderWith (bindings : Table Value) (body : List Node) (next : String → TagScript)
  /-- The value of a variable, if there is one. -/
  | lookup (name : String) (next : Option Value → TagScript)
  /-- Report a problem. -/
  | report (diagnostic : Diagnostic) (next : TagScript)
  /-- The number of frames. -/
  | depth (next : Nat → TagScript)
  /-- A look at the environment of the render. -/
  | survey (next : Facade → TagScript)

namespace TagScript

/-- The settings of the render. -/
def terms (next : Terms → TagScript) : TagScript := .survey fun facade => next facade.toTerms

/-- Evaluates the arguments of a tag one after another, and goes on with what came of them. -/
def argumentsAfter (positional : List Value) (keywords : Table Value) (next : Arguments → TagScript) :
    List Expr → TagScript
  | [] => next ⟨positional, keywords⟩
  | .keyword name expr _ :: rest =>
      .evaluate expr fun value => argumentsAfter positional (keywords.put name value) next rest
  | expr :: rest =>
      .evaluate expr fun value => argumentsAfter (positional ++ [value]) keywords next rest

def arguments (args : List Expr) (next : Arguments → TagScript) : TagScript :=
  argumentsAfter [] [] next args

end TagScript

structure Tag where
  name : String
  args : List Expr
  body : Option (List Node)
  span : Span

/-- The statement that a tag is. -/
def Tag.node (tag : Tag) : Node := .custom tag.name tag.args tag.body tag.span

abbrev TagRenderer := Tag → TagScript

end Stencil.Host
