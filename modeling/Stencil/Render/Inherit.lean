import Stencil.Render.Action

/-!
Contract: templates by name, and templates built on one another.

Owns:
- loading a template by the value of an expression;
- rendering a template, from the statements of its own that count to the body of the template at the
  root of its chain;
- blocks, which are rendered by the definition closest to the first template, and the definitions
  they replace.

Does not own: templates rendered in place of a tag (`Stencil.Render.Embed`).
-/

set_option autoImplicit false

namespace Stencil.Render

open Stencil.Host (Loaded)
open Stencil.Syntax (Expr MacroDefinition Node Template)
open Stencil.Text (Span)

namespace Action

/-! ## Templates by name -/

/-- The name of a template, if the expression gives a text. -/
def templateName? (expr : Expr) : Action (Option String) := do
  match ← valueOf expr with
  | .text name => return some name
  | other =>
      problem (.invalidTemplateName other.typeName) expr.span
      return none

/-- A template by name; its absence is reported. -/
def loadOrReport (name : String) (span : Span) : Action (Option Loaded) := do
  match ← fetch name with
  | .ok loaded => return some loaded
  | .error fault =>
      problem (.templateNotFound name fault.message) span
      return none

/-- Reports that a template is being rendered already. -/
def reportCycle (name : String) (span : Span) : Action Unit := do
  let view ← view
  problem (.templateCycle name (view.place.loads.reverse ++ [name])) span

/-! ## Macros -/

/-- Makes the macros of a template callable by name, in place of others of their names. -/
def defineAll (home : Table MacroDefinition) : Table MacroDefinition → Action Unit
  | [] => return ()
  | (name, definition) :: rest => do
      defineMacro name ⟨definition, home⟩
      defineAll home rest

/-- Makes the macros of a template callable by name, unless there are others of their names. -/
def defineMissing (home : Table MacroDefinition) : Table MacroDefinition → Action Unit
  | [] => return ()
  | (name, definition) :: rest => do
      if !(← view).macros.has name then defineMacro name ⟨definition, home⟩
      defineMissing home rest

/-! ## Chains of templates -/

/-- Whether a statement counts outside all blocks of a template that is built on another one. -/
def isPreparation : Node → Bool
  | .assign .. => true
  | .capture .. => true
  | .importAs .. => true
  | .importNames .. => true
  | _ => false

/-- Carries out the statements of a template that count outside all blocks; their text does not. -/
def prepare : List Node → Action Unit
  | [] => return ()
  | node :: rest => do
      if isPreparation node then
        let _ ← textOf [node]
      prepare rest

/-- The text of the template that a parent expression names, with the blocks of all templates built
on it. -/
def ascendTo (overrides : Overrides) (parent : Expr) : Action String := do
  match ← templateName? parent with
  | none => return ""
  | some name =>
      if name ∈ (← view).place.loads then
        reportCycle name parent.span
        return ""
      else
        match ← loadOrReport name parent.span with
        | none => return ""
        | some loaded =>
            defineMissing loaded.macros loaded.macros
            let overrides := Overrides.add overrides loaded.name loaded.blocks
            match loaded.template.parent? with
            | none =>
                inSetting (.chain overrides) <| inSetting (.template loaded.name) <|
                  textOf loaded.template.body
            | some (next, _) =>
                inSetting (.template loaded.name) do
                  prepare loaded.template.body
                  .ascend overrides next .done

def renderTemplate (name : String) (template : Template) : Action String :=
  inSetting (.template name) do
    let macros := Host.macroTable template.body
    defineAll macros macros
    match template.parent? with
    | none => textOf template.body
    | some (parent, _) =>
        prepare template.body
        .ascend (Overrides.add [] name (Host.blockTable template.body)) parent .done

/-! ## Blocks -/

/-- The text of a definition of a block, if there are that many. -/
def renderLevel (name : String) (level : Nat) : Action (Option String) := do
  match ((← view).place.overrides.lookup? name).bind fun chain => chain[level]? with
  | none => return none
  | some definition =>
      return some (← inSetting (.block name level definition.template) (textOf definition.body))

/-- The text of a block: that of the definition that counts, or else its own. -/
def renderBlock (name : String) (body : List Node) : Action String := do
  match ← renderLevel name 0 with
  | some text => return text
  | none => textOf body

/-- The text of the definition that the one being rendered replaces. -/
def callSuper (span : Span) : Action Value := do
  match (← view).place.supers with
  | (name, level) :: _ =>
      match ← renderLevel name (level + 1) with
      | some text => return .text text
      | none =>
          problem .noParentBlock span
          return .nil
  | [] =>
      problem .noParentBlock span
      return .nil

end Action

end Stencil.Render
