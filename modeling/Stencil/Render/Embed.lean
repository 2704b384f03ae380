import Stencil.Render.Inherit

/-!
Contract: other templates used inside a template.

Owns:
- templates rendered in place of a tag, the first of several candidates that can be had;
- macros imported from other templates.

Does not own: templates built on one another (`Stencil.Render.Inherit`).
-/

set_option autoImplicit false

namespace Stencil.Render

open Stencil.Syntax (Expr ImportName)
open Stencil.Text (Span)

namespace Action

/-- The candidates that a value stands for: a name, or several of them. -/
def candidatesOf? : Value → Option (List String)
  | .text name => some [name]
  | .seq names => some (names.map Value.display)
  | _ => none

/-- Renders the first candidate that can be had; the answer is missing if none of them is there.
A candidate that is being rendered already, or is there and cannot be had, is reported and ends the
search. -/
def embedFirst? (withContext : Bool) (span : Span) : List String → Action (Option String)
  | [] => return none
  | name :: rest => do
      if name ∈ (← view).place.loads then
        reportCycle name span
        return some ""
      else
        match ← fetch name with
        | .ok loaded =>
            return some (← inSetting (.embedded withContext)
              (renderTemplate loaded.name loaded.template))
        | .error fault =>
            if fault.isAbsence then embedFirst? withContext span rest
            else
              problem (.templateNotFound name fault.message) span
              return some ""

/-- The text of a template in place of a tag. -/
def embed (template : Expr) (withContext ignoreMissing : Bool) : Action String := do
  let value ← valueOf template
  match candidatesOf? value with
  | none =>
      problem (.invalidTemplateName value.typeName) template.span
      return ""
  | some names =>
      match ← embedFirst? withContext template.span names with
      | some text => return text
      | none =>
          if !ignoreMissing then
            problem (.templateNotFound (", ".intercalate names) "no loader could find it")
              template.span
          return ""

/-- Makes the macros of another template known under a name. -/
def importAs (template : Expr) (name : String) : Action Unit := do
  match ← templateName? template with
  | none => return ()
  | some source =>
      match ← loadOrReport source template.span with
      | none => return ()
      | some loaded => .mount name loaded.macros (.done ())

/-- Makes some macros of another template callable by name. -/
def importEach (loaded : Host.Loaded) : List ImportName → Action Unit
  | [] => return ()
  | wanted :: rest => do
      match loaded.macros.lookup? wanted.name with
      | some definition => defineMacro wanted.localName ⟨definition, loaded.macros⟩
      | none => problem (.unknownMacro (loaded.name ++ "." ++ wanted.name)) wanted.span
      importEach loaded rest

/-- Makes macros of another template callable by name. -/
def importNames (template : Expr) (names : List ImportName) : Action Unit := do
  match ← templateName? template with
  | none => return ()
  | some source =>
      match ← loadOrReport source template.span with
      | none => return ()
      | some loaded => importEach loaded names

end Action

end Stencil.Render
