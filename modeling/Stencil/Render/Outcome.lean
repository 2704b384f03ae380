import Stencil.Render.Perform

/-!
Contract: whole renders.

Owns:
- what a render gives: a text, reports, and the shelf with all templates it has loaded;
- renders of parsed templates, of texts, and of templates by name.

Does not own: what happens in a render (`Stencil.Render.Perform`).
-/

set_option autoImplicit false

namespace Stencil.Render

open Stencil.Host (Environment Shelf)
open Stencil.Report (Diagnostic)
open Stencil.Syntax (Template)

structure Outcome where
  text : String
  problems : List Diagnostic
  shelf : Shelf

/-- What a render with this last state gives. -/
def Outcome.ofState (text : String) (state : State) : Outcome :=
  ⟨text, state.problems.toList, state.shelf⟩

/-- The text of the template of a name; its absence is reported at the start of all texts. -/
def Action.renderNamed (name : String) : Action String := do
  match ← loadOrReport name default with
  | none => return ""
  | some loaded => renderTemplate loaded.name loaded.template

/-- Renders a parsed template, with evaluation nested no deeper than `depth`. -/
def renderTemplateWithin (depth : Nat) (environment : Environment) (template : Template)
    (context : Table Value) (shelf : Shelf) : Option Outcome :=
  ((Action.renderTemplate template.displayName template).perform environment
    (belowDepth environment depth) (.initial context shelf)).map fun answer =>
      .ofState answer.1 answer.2

/-- Renders the template of a name, with evaluation nested no deeper than `depth`. -/
def renderNamedWithin (depth : Nat) (environment : Environment) (name : String)
    (context : Table Value) (shelf : Shelf) : Option Outcome :=
  ((Action.renderNamed name).perform environment (belowDepth environment depth)
    (.initial context shelf)).map fun answer => .ofState answer.1 answer.2

/-- Renders a text, with evaluation nested no deeper than `depth`. What is wrong with the text comes
first. -/
def renderTextWithin (depth : Nat) (environment : Environment) (name source : String)
    (context : Table Value) (shelf : Shelf) : Option Outcome :=
  let parsed := environment.parse name source
  (renderTemplateWithin depth environment parsed.template context shelf).map fun outcome =>
    { outcome with problems := parsed.problems ++ outcome.problems }

/-- The depth that evaluation may be nested to unless something else is said. -/
def depthLimit : Nat := 1000000

def renderNamed (environment : Environment) (name : String) (context : Table Value)
    (shelf : Shelf) : Option Outcome :=
  renderNamedWithin depthLimit environment name context shelf

def renderText (environment : Environment) (name source : String) (context : Table Value)
    (shelf : Shelf) : Option Outcome :=
  renderTextWithin depthLimit environment name source context shelf

end Stencil.Render
