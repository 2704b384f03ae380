import Stencil.Render.Inherit

/-!
Contract: calls in templates.

Owns:
- the values of arguments, and the frame in which they reach a body;
- macros, the bodies handed to them, functions and methods, and which of them a name stands for.

The body of a macro is rendered on top of the frames at the place of the call, and so are the
defaults of its parameters.

Does not own: the functions and methods themselves (`Stencil.Host.Callable`).
-/

set_option autoImplicit false

namespace Stencil.Render

open Stencil.Host (Arguments)
open Stencil.Syntax (Expr Param)
open Stencil.Text (Span)

namespace Action

/-! ## Arguments -/

/-- Evaluates arguments from left to right, after some that have been evaluated. -/
def argumentsAfter (positional : List Value) (keywords : Table Value) :
    List Expr → Action Arguments
  | [] => return ⟨positional, keywords⟩
  | .keyword name expr _ :: rest => do
      let value ← valueOf expr
      argumentsAfter positional (keywords.put name value) rest
  | expr :: rest => do
      let value ← valueOf expr
      argumentsAfter (positional ++ [value]) keywords rest

/-- The values of arguments, by position and by keyword. -/
def argumentsOf (args : List Expr) : Action Arguments := argumentsAfter [] [] args

/-- The value of a parameter that no position provides: the keyword's, the default, or nothing. -/
def valueOfParam (keywords : Table Value) (param : Param) : Action Value :=
  match keywords.lookup? param.name with
  | some value => return value
  | none =>
      match param.default with
      | some default => valueOf default
      | none => return .nil

/-- Binds parameters by position, then by keyword, then by default, on top of a frame. What is left
over goes into `varargs` and `kwargs`. -/
def bindAfter (owner : String) (span : Span) (frame : Table Value) :
    List Param → Arguments → Action (Table Value)
  | [], args =>
      return (frame.put "varargs" (.seq args.positional)).put "kwargs" (.map args.keywords)
  | param :: rest, ⟨value :: positional, keywords⟩ => do
      if keywords.has param.name then
        problem (.callFailed owner ("got multiple values for argument '" ++ param.name ++ "'")) span
      bindAfter owner span (frame.put param.name value) rest
        ⟨positional, keywords.without param.name⟩
  | param :: rest, ⟨[], keywords⟩ => do
      let value ← valueOfParam keywords param
      bindAfter owner span (frame.put param.name value) rest ⟨[], keywords.without param.name⟩

/-- The frame in which arguments reach a body. -/
def bindParams (owner : String) (params : List Param) (args : Arguments) (span : Span) :
    Action (Table Value) :=
  bindAfter owner span [] params args

/-! ## Macros -/

/-- Goes on unless calls are nested too deeply. -/
def unlessTooDeep (span : Span) (body : Action Value) : Action Value := do
  if (← view).place.callDepth ≥ callLimit then
    problem (.recursionLimit callLimit) span
    return .nil
  else body

/-- The value of a macro's call: the text of its body. -/
def callMacro (callable : Macro) (args : Arguments) (caller : Option Caller) (span : Span) :
    Action Value :=
  unlessTooDeep span do
    let definition := callable.definition
    let frame ← bindParams definition.name definition.params args span
    return .text (← inSetting (.call caller callable.home) <| inSetting (.frame frame) <|
      textOf definition.body)

/-- The text of the body handed to the macro being rendered. -/
def callCaller (caller : Caller) (args : Arguments) (span : Span) : Action Value :=
  match caller with
  | .rendered text => return .text text
  | .deferred params body =>
      unlessTooDeep span do
        let frame ← bindParams "caller" params args span
        return .text (← inSetting .callSite <| inSetting (.frame frame) <| textOf body)

/-- The macro that a name stands for. The sister macros of the one being rendered come first. -/
def findMacro? (name : String) : Action (Option Macro) := do
  let view ← view
  match view.place.homes.head?.bind fun home =>
      (home.lookup? name).map fun definition => Macro.mk definition home with
  | some callable => return some callable
  | none => return view.macros.lookup? name

/-! ## Names, methods and other callees -/

/-- The value that a host's answer stands for; a failure is reported. -/
def accept (name : String) (answer : Except String Value) (span : Span) : Action Value :=
  match answer with
  | .ok value => return value
  | .error reason => do
      problem (.callFailed name reason) span
      return .nil

/-- The value of a call by name, if it stands for a function of the host. -/
def callFunction (name : String) (args : Arguments) (span : Span) : Action Value := do
  match (← registry).function? name with
  | some function => accept name (function args) span
  | none =>
      match ← resolve name with
      | some value => problem (.notCallable value.typeName) span
      | none => failedLookup .function (.unknownFunction name) span
      return .nil

/-- The body that a call by name asks for: that handed to the macro being rendered. -/
def callerFor? (name : String) : Action (Option Caller) := do
  if name = "caller" then
    match (← view).place.callers with
    | some caller :: _ => return some caller
    | _ => return none
  else return none

def callName (name : String) (args : List Expr) (caller : Option Caller) (span : Span) :
    Action Value := do
  match ← callerFor? name with
  | some handed => callCaller handed (← argumentsOf args) span
  | none =>
      if name = "super" then callSuper span
      else
        match ← findMacro? name with
        | some callable => callMacro callable (← argumentsOf args) caller span
        | none => callFunction name (← argumentsOf args) span

/-- The value of a call of an object's method. -/
def callMethod (object : Value) (name : String) (args : Arguments) (span : Span) :
    Action Value := do
  match (← registry).method? object name with
  | some method => accept (object.typeName ++ "." ++ name) (method object args) span
  | none =>
      match object.attribute? name with
      | some value => problem (.notCallable value.typeName) span
      | none => failedLookup .function (.unknownFunction (object.typeName ++ "." ++ name)) span
      return .nil

/-- The imported macros that the base of a callee stands for, unless it is a variable. -/
def namespaceOf? (base : Expr) : Action (Option (String × Table Syntax.MacroDefinition)) := do
  match base with
  | .name name _ =>
      let view ← view
      if view.scopes.has name then return none
      else return (view.namespaces.lookup? name).map fun macros => (name, macros)
  | _ => return none

def callExpr (callee : Expr) (args : List Expr) (caller : Option Caller) (span : Span) :
    Action Value :=
  match callee with
  | .name name _ => callName name args caller span
  | .attribute base attr attrSpan => do
      match ← namespaceOf? base with
      | some (name, macros) =>
          match macros.lookup? attr with
          | some definition => callMacro ⟨definition, macros⟩ (← argumentsOf args) caller span
          | none =>
              problem (.unknownMacro (name ++ "." ++ attr)) attrSpan
              return .nil
      | none =>
          let object ← valueOf base
          callMethod object attr (← argumentsOf args) span
  | other => do
      let value ← valueOf other
      problem (.notCallable value.typeName) span
      return .nil

end Action

end Stencil.Render
