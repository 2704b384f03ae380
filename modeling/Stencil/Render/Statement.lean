import Stencil.Render.Embed
import Stencil.Render.Evaluate
import Stencil.Render.Loop

/-!
Contract: the texts of statements.

Owns:
- what each kind of statement does and prints;
- how the requests of a host's tag are carried out.

Does not own: sequences of statements, which count steps (`Stencil.Render.Perform`).
-/

set_option autoImplicit false

namespace Stencil.Render

open Stencil.Host (Tag TagScript)
open Stencil.Syntax (Binding Branch Expr FilterCall Node Param)
open Stencil.Text (Span)

namespace Action

/-- The body of the first branch whose test holds, or else the other one. -/
def chooseBody (otherwise : Option (List Node)) : List Branch → Action (Option (List Node))
  | [] => return otherwise
  | branch :: rest => do
      if (← valueOf branch.test).isTruthy then return some branch.body
      else chooseBody otherwise rest

/-- The text of a body with assignments of its own, all of which are evaluated before the first is
made. -/
def renderWith (bindings : List Binding) (body : List Node) : Action String := do
  let values ← valuesOf (bindings.map (·.value))
  inSetting (.frame []) do
    assignAll (bindings.map (·.target)) values
    textOf body

def filterBody (filters : List FilterCall) (body : List Node) : Action Value := do
  let text ← textOf body
  applyFilters (.text text) filters

/-- The value of a macro's call that hands the macro a body. -/
def callWithBody (call : Expr) (params : List Param) (body : List Node) : Action Value :=
  match call with
  | .call callee args span => do
      let caller ← if params.isEmpty then do pure (Caller.rendered (← textOf body))
        else pure (Caller.deferred params body)
      callExpr callee args (some caller) span
  | other => valueOf other

/-- Carries out the requests of a host's tag. -/
def ofScript : TagScript → Action String
  | .done text => return text
  | .evaluate expr next => .eval expr fun value => ofScript (next value)
  | .render body next => .render body fun text => ofScript (next text)
  | .renderWith bindings body next =>
      .within (.frame bindings) (textOf body) fun text => ofScript (next text)
  | .lookup name next => do
      let value ← resolve name
      ofScript (next value)
  | .report diagnostic next => .report diagnostic (ofScript next)
  | .depth next => .look fun view => ofScript (next view.scopes.depth)
  | .survey next => .survey fun facade => ofScript (next facade)

/-- The text of a tag that an extension has read. -/
def renderCustom (tag : Tag) : Action String := do
  match (← registry).renderer? tag.name with
  | some renderer => ofScript (renderer tag)
  | none =>
      problem (.unknownTagRenderer tag.name) tag.span
      textOfBody tag.body

def carryOut : Node → Action String
  | .text content _ => return content
  | .verbatim content _ => return content
  | .output value _ => do return (← valueOf value).display
  | .choose branches otherwise _ => do textOfBody (← chooseBody otherwise branches)
  | .each target items condition body otherwise _ =>
      renderEach target items condition body otherwise
  | .assign target value _ => do
      assign target (← valueOf value)
      return ""
  | .capture target filters body _ => do
      assign target (← filterBody filters body)
      return ""
  | .block name body _ => renderBlock name body
  | .inherit _ _ => return ""
  | .embed template withContext ignoreMissing _ => embed template withContext ignoreMissing
  | .importAs template boundAs _ _ => do
      importAs template boundAs
      return ""
  | .importNames template names _ _ => do
      importNames template names
      return ""
  | .define _ _ _ _ => return ""
  | .callBlock call params body _ => do return (← callWithBody call params body).display
  | .withBlock bindings body _ => renderWith bindings body
  | .filterBlock filters body _ => do return (← filterBody filters body).display
  | .comment _ _ => return ""
  | .custom name args body span => renderCustom ⟨name, args, body, span⟩

end Action

end Stencil.Render
