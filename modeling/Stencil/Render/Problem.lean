import Stencil.Report.Diagnostic
import Stencil.Value.Operate
import Stencil.Value.Update

/-!
Contract: what can go wrong in a render.

Owns:
- the causes, each with its kind and its wording.

No cause stops a render; what went wrong is reported and a neutral value takes its place.

Does not own: where and when a cause arises (`Stencil.Render.Evaluate`, `Stencil.Render.Statement`).
-/

set_option autoImplicit false

namespace Stencil.Render

open Stencil.Report (Code Diagnostic)
open Stencil.Text (Span)

inductive Problem where
  | unknownVariable (name : String)
  | unknownAttribute (type attr : String)
  | unknownItem (type index : String)
  | unknownFilter (name : String)
  | unknownTest (name : String)
  | unknownFunction (name : String)
  | unknownMacro (name : String)
  /-- An operator refuses its operands. -/
  | fault (fault : Value.Fault)
  /-- The name of a template is no text. -/
  | invalidTemplateName (type : String)
  /-- Something that is no part of a variable. -/
  | notAssignable (target : String)
  | notIterable (type : String)
  | notCallable (type : String)
  | unpackMismatch (expected found : Nat)
  | templateNotFound (name reason : String)
  /-- A template that is being rendered already, with the templates that lead to it. -/
  | templateCycle (name : String) (chain : List String)
  | unknownTagRenderer (tag : String)
  | callFailed (name reason : String)
  | noParentBlock
  | recursionLimit (depth : Nat)
  | budgetExceeded (limit : Nat)

namespace Problem

def code : Problem → Code
  | .unknownVariable _ => .unknownVariable
  | .unknownAttribute _ _ => .unknownVariable
  | .unknownItem _ _ => .unknownVariable
  | .unknownFilter _ => .unknownFilter
  | .unknownTest _ => .unknownTest
  | .unknownFunction _ => .unknownFunction
  | .unknownMacro _ => .unknownMacro
  | .fault _ => .invalidOperand
  | .invalidTemplateName _ => .invalidOperand
  | .notAssignable _ => .invalidOperand
  | .notIterable _ => .notIterable
  | .notCallable _ => .notCallable
  | .unpackMismatch _ _ => .unpackMismatch
  | .templateNotFound _ _ => .templateNotFound
  | .templateCycle _ _ => .templateCycle
  | .unknownTagRenderer _ => .unknownTagRenderer
  | .callFailed _ _ => .callFailed
  | .noParentBlock => .callFailed
  | .recursionLimit _ => .callFailed
  | .budgetExceeded _ => .renderBudgetExceeded

def message : Problem → String
  | .unknownVariable name => "undefined variable '" ++ name ++ "'"
  | .unknownAttribute type attr => "'" ++ type ++ "' value has no attribute '" ++ attr ++ "'"
  | .unknownItem type index => "'" ++ type ++ "' value has no item " ++ index
  | .unknownFilter name => "unknown filter '" ++ name ++ "'"
  | .unknownTest name => "unknown test '" ++ name ++ "'"
  | .unknownFunction name => "unknown function '" ++ name ++ "'"
  | .unknownMacro name => "unknown macro '" ++ name ++ "'"
  | .fault cause => cause.message
  | .invalidTemplateName type => "template name must be a string, found '" ++ type ++ "'"
  | .notAssignable target => "cannot assign to " ++ target
  | .notIterable type => "'" ++ type ++ "' value is not iterable"
  | .notCallable type => "'" ++ type ++ "' value is not callable"
  | .unpackMismatch expected found =>
      "cannot unpack " ++ toString found ++ " values into " ++ toString expected ++ " names"
  | .templateNotFound name reason => "template '" ++ name ++ "' not found: " ++ reason
  | .templateCycle name chain =>
      "template '" ++ name ++ "' is already being rendered (" ++ " -> ".intercalate chain ++ ")"
  | .unknownTagRenderer tag => "no renderer registered for tag '" ++ tag ++ "'"
  | .callFailed name reason => "call to '" ++ name ++ "' failed: " ++ reason
  | .noParentBlock => "super() used outside of an overriding block"
  | .recursionLimit depth => "maximum call depth of " ++ toString depth ++ " exceeded"
  | .budgetExceeded limit => "render stopped after " ++ toString limit ++ " steps"

def at_ (problem : Problem) (span : Span) : Diagnostic := .new problem.code problem.message span

end Problem

end Stencil.Render
