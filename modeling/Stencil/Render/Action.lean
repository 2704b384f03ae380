import Stencil.Render.Problem
import Stencil.Render.State

/-!
Contract: what expressions and statements ask of a render.

Owns:
- actions, sequences of requests each of which hands its answer to the rest;
- the settings in which a part of an action is carried out, and how they are entered and left.

An action never holds the state of a render. All it can do to the stacks of a render is to have a
part of it carried out in another setting, and leaving a setting undoes what entering it did.

Does not own: how requests are answered (`Stencil.Render.Perform`).
-/

set_option autoImplicit false

namespace Stencil.Render

open Stencil.Host (Facade LoadFault Loaded Registry)
open Stencil.Report (Diagnostic)
open Stencil.Syntax (Expr MacroDefinition Node)
open Stencil.Text (Span)

def callLimit : Nat := 128

/-- The kinds of look-up whose failure is reported only if the host wants it. -/
inductive Lookup where
  | variable_
  | filter
  | test
  | function
deriving DecidableEq, Repr

/-- Whether the failure of a look-up is reported. -/
def Lookup.isStrict (lookup : Lookup) (strict : Host.Strictness) : Bool :=
  match lookup with
  | .variable_ => strict.undefined
  | .filter => strict.filters
  | .test => strict.tests
  | .function => strict.functions

/-! ## Settings -/

inductive Setting where
  /-- A frame of variables. -/
  | frame (bindings : Table Value)
  /-- The body of a macro. -/
  | call (caller : Option Caller) (home : Table MacroDefinition)
  /-- The body of a call block, outside the macro that asks for it. -/
  | callSite
  /-- The body of a loop. -/
  | loop
  /-- A definition of a block. -/
  | block (name : String) (level : Nat) (origin : String)
  /-- The statements of a template. -/
  | template (name : String)
  /-- A chain of templates built on one another, by the blocks they define. -/
  | chain (overrides : Overrides)
  /-- A template rendered in place of a tag. -/
  | embedded (withContext : Bool)

namespace Setting

def place (setting : Setting) (place : Place) : Place :=
  match setting with
  | .frame _ => place
  | .call caller home =>
      { place with
        callers := caller :: place.callers
        homes := home :: place.homes
        callDepth := place.callDepth + 1 }
  | .callSite =>
      { place with
        callers := place.callers.tail
        homes := place.homes.tail
        callDepth := place.callDepth + 1 }
  | .loop => { place with loopDepth := place.loopDepth + 1 }
  | .block name level origin =>
      { place with
        supers := (name, level) :: place.supers
        templates := origin :: place.templates }
  | .template name =>
      { place with loads := name :: place.loads, templates := name :: place.templates }
  | .chain overrides => { place with overrides := overrides }
  | .embedded _ => { place with overrides := [], supers := [], callers := [], homes := [] }

def scopes (setting : Setting) (scopes : Scopes) : Scopes :=
  match setting with
  | .frame bindings => scopes.push bindings
  | .embedded false => .root []
  | _ => scopes

def enter (setting : Setting) (view : View) : View :=
  { view with place := setting.place view.place, scopes := setting.scopes view.scopes }

/-- The place behind a setting that was entered from `before`. What entering put on a stack is taken
off again, what it set aside comes back, and what it counted up is counted down. -/
def placeAfter (setting : Setting) (before after : Place) : Place :=
  match setting with
  | .frame _ => after
  | .call _ _ =>
      { after with
        callers := after.callers.tail
        homes := after.homes.tail
        callDepth := after.callDepth - 1 }
  | .callSite =>
      { after with
        callers := before.callers.head?.toList ++ after.callers
        homes := before.homes.head?.toList ++ after.homes
        callDepth := after.callDepth - 1 }
  | .loop => { after with loopDepth := after.loopDepth - 1 }
  | .block _ _ _ => { after with supers := after.supers.tail, templates := after.templates.tail }
  | .template _ => { after with loads := after.loads.tail, templates := after.templates.tail }
  | .chain _ => { after with overrides := before.overrides }
  | .embedded _ =>
      { after with
        overrides := before.overrides
        supers := before.supers
        callers := before.callers
        homes := before.homes }

/-- The frames behind a setting that was entered from `before`. A frame is dropped; a template
rendered in place keeps its variables to itself unless it shares them. -/
def scopesAfter (setting : Setting) (before after : Scopes) : Scopes :=
  match setting with
  | .frame _ => after.pop
  | .embedded false => before
  | _ => after

/-- Leaves a setting. A template rendered in place keeps its macros to itself. -/
def leave (setting : Setting) (before after : View) : View :=
  let left := { after with
    place := setting.placeAfter before.place after.place
    scopes := setting.scopesAfter before.scopes after.scopes }
  match setting with
  | .embedded _ => { left with macros := before.macros, namespaces := before.namespaces }
  | _ => left

end Setting

/-! ## Actions -/

/-- A sequence of requests that ends with an answer. -/
inductive Action : Type → Type 1 where
  | done {α : Type} (answer : α) : Action α
  /-- The value of an expression. -/
  | eval {α : Type} (expr : Expr) (next : Value → Action α) : Action α
  /-- The text of statements. -/
  | render {α : Type} (nodes : List Node) (next : String → Action α) : Action α
  /-- The text of a template that the template being rendered is built on. -/
  | ascend {α : Type} (overrides : Overrides) (parent : Expr) (next : String → Action α) : Action α
  /-- A look at what the course of the render depends on. -/
  | look {α : Type} (next : View → Action α) : Action α
  /-- A look at what the host has registered. -/
  | consult {α : Type} (next : Registry → Action α) : Action α
  /-- A look at what the environment of the render shows of itself. -/
  | survey {α : Type} (next : Facade → Action α) : Action α
  /-- A report. -/
  | report {α : Type} (diagnostic : Diagnostic) (next : Action α) : Action α
  /-- A report of a failed look-up, if the host wants it. -/
  | complain {α : Type} (lookup : Lookup) (diagnostic : Diagnostic) (next : Action α) : Action α
  /-- A variable of the innermost frame. -/
  | bindName {α : Type} (name : String) (value : Value) (next : Action α) : Action α
  /-- A part of a variable, one step behind the end of a path. -/
  | store {α : Type} (root : String) (path : List Value.Key) (key : Value.Key) (value : Value)
      (next : Option String → Action α) : Action α
  /-- A macro that can be called by name. -/
  | define {α : Type} (name : String) (callable : Macro) (next : Action α) : Action α
  /-- Macros that can be called by name under another name. -/
  | mount {α : Type} (name : String) (macros : Table MacroDefinition) (next : Action α) : Action α
  /-- A template by name. -/
  | load {α : Type} (name : String) (next : Except LoadFault Loaded → Action α) : Action α
  /-- A part carried out in another setting. -/
  | within {α β : Type} (setting : Setting) (inner : Action β) (next : β → Action α) : Action α

namespace Action

def andThen {α β : Type} : Action α → (α → Action β) → Action β
  | .done answer, rest => rest answer
  | .eval expr next, rest => .eval expr fun value => (next value).andThen rest
  | .render nodes next, rest => .render nodes fun text => (next text).andThen rest
  | .ascend overrides parent next, rest =>
      .ascend overrides parent fun text => (next text).andThen rest
  | .look next, rest => .look fun view => (next view).andThen rest
  | .consult next, rest => .consult fun registry => (next registry).andThen rest
  | .survey next, rest => .survey fun facade => (next facade).andThen rest
  | .report diagnostic next, rest => .report diagnostic (next.andThen rest)
  | .complain lookup diagnostic next, rest => .complain lookup diagnostic (next.andThen rest)
  | .bindName name value next, rest => .bindName name value (next.andThen rest)
  | .store root path key value next, rest =>
      .store root path key value fun refusal => (next refusal).andThen rest
  | .define name callable next, rest => .define name callable (next.andThen rest)
  | .mount name macros next, rest => .mount name macros (next.andThen rest)
  | .load name next, rest => .load name fun answer => (next answer).andThen rest
  | .within setting inner next, rest =>
      .within setting inner fun answer => (next answer).andThen rest

instance : Monad Action where
  pure := .done
  bind := andThen

def valueOf (expr : Expr) : Action Value := .eval expr .done

def textOf (nodes : List Node) : Action String := .render nodes .done

/-- What the course of the render depends on. -/
def view : Action View := .look .done

def registry : Action Registry := .consult .done

def problem (cause : Problem) (span : Span) : Action Unit := .report (cause.at_ span) (.done ())

/-- Reports a failed look-up at a place, if the host wants it. -/
def failedLookup (lookup : Lookup) (cause : Problem) (span : Span) : Action Unit :=
  .complain lookup (cause.at_ span) (.done ())

def bindTo (name : String) (value : Value) : Action Unit := .bindName name value (.done ())

def defineMacro (name : String) (callable : Macro) : Action Unit := .define name callable (.done ())

/-- A template by name, or why it cannot be had. -/
def fetch (name : String) : Action (Except LoadFault Loaded) := .load name .done

def inSetting {α : Type} (setting : Setting) (inner : Action α) : Action α :=
  .within setting inner .done

/-- The value of a variable, or else the environment's value of the name. -/
def resolve (name : String) : Action (Option Value) := do
  let view ← view
  match view.scopes.lookup? name with
  | some value => return some value
  | none => return (← registry).global? name

end Action

end Stencil.Render
