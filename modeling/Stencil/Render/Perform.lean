import Stencil.Host.Describe
import Stencil.Render.Statement

/-!
Contract: how the requests of actions are answered.

Owns:
- what each request does to the state of a render;
- the steps that statements take, and the limit on them;
- the depth of evaluation, by which a render is defined for all templates.

A render whose evaluation goes deeper than it may has no answer.

Does not own: what expressions and statements request (`Stencil.Render.Evaluate`,
`Stencil.Render.Statement`).
-/

set_option autoImplicit false

namespace Stencil.Render

open Stencil.Host (Environment Shelf)
open Stencil.Syntax (Expr Node)
open Stencil.Text (Span)

/-- A part of a render that ends with an answer, if it is not too deep. -/
abbrev Run (α : Type) := State → Option (α × State)

/-- How the parts of expressions and statements are carried out. -/
structure Below where
  eval : Expr → Run Value
  render : List Node → Run String
  ascend : Overrides → Expr → Run String

namespace State

/-- Looks a template up on the shelf, or loads it; what is wrong with it is reported once. -/
def load (environment : Environment) (name : String) (state : State) :
    Except Host.LoadFault Host.Loaded × State :=
  match Shelf.fetch environment name state.shelf with
  | (.ok loaded, shelf) => (.ok loaded, { state with shelf := shelf }.reportLoaded loaded)
  | (.error fault, shelf) => (.error fault, { state with shelf := shelf })

/-- Changes a part of a variable. The answer says what cannot be assigned to. -/
def store (root : String) (path : List Value.Key) (key : Value.Key) (value : Value)
    (state : State) : Option String × State :=
  match state.scopes.lookup? root with
  | none => (some ("'" ++ root ++ "', which is not a local variable"), state)
  | some old =>
      match old.store (path ++ [key]) value with
      | .error refusal => (some refusal.describe, state)
      | .ok new => (none, { state with scopes := state.scopes.replace root new })

/-- Takes a step, unless the render has run out of them. The answer says whether it did. -/
def tick (maxSteps : Option Nat) (span : Span) (state : State) : Bool × State :=
  if state.halted then (false, state)
  else
    let state := { state with steps := state.steps + 1 }
    match maxSteps with
    | none => (true, state)
    | some limit =>
        if state.steps ≤ limit then (true, state)
        else (false, { state with halted := true }.report ((Problem.budgetExceeded limit).at_ span))

end State

def Action.perform (environment : Environment) (below : Below) :
    {α : Type} → Action α → Run α
  | _, .done answer, state => some (answer, state)
  | _, .eval expr next, state =>
      match below.eval expr state with
      | none => none
      | some (value, state) => (next value).perform environment below state
  | _, .render nodes next, state =>
      match below.render nodes state with
      | none => none
      | some (text, state) => (next text).perform environment below state
  | _, .ascend overrides parent next, state =>
      match below.ascend overrides parent state with
      | none => none
      | some (text, state) => (next text).perform environment below state
  | _, .look next, state => (next state.toView).perform environment below state
  | _, .consult next, state => (next environment.toRegistry).perform environment below state
  | _, .survey next, state => (next environment.facade).perform environment below state
  | _, .report diagnostic next, state =>
      next.perform environment below (state.report diagnostic)
  | _, .complain lookup diagnostic next, state =>
      next.perform environment below
        (if lookup.isStrict environment.strict then state.report diagnostic else state)
  | _, .bindName name value next, state =>
      next.perform environment below { state with scopes := state.scopes.bind name value }
  | _, .store root path key value next, state =>
      let (refusal, state) := state.store root path key value
      (next refusal).perform environment below state
  | _, .define name callable next, state =>
      next.perform environment below { state with macros := state.macros.put name callable }
  | _, .mount name macros next, state =>
      next.perform environment below { state with namespaces := state.namespaces.put name macros }
  | _, .load name next, state =>
      let (answer, state) := state.load environment name
      (next answer).perform environment below state
  | _, .within setting inner next, state =>
      match inner.perform environment below { state with toView := setting.enter state.toView } with
      | none => none
      | some (answer, after) =>
          (next answer).perform environment below
            { after with toView := setting.leave state.toView after.toView }

/-- To ask for the value of an expression is to evaluate it. -/
theorem Action.perform_valueOf {environment : Environment} {below : Below} (expr : Expr)
    (state : State) :
    (valueOf expr).perform environment below state = below.eval expr state := by
  rw [valueOf, perform]
  cases below.eval expr state <;> rfl

/-- Renders statements in order, one step each, until the render has run out of steps. -/
def renderAll (environment : Environment) (below : Below) : List Node → Run String
  | [], state => some ("", state)
  | node :: rest, state =>
      match state.tick environment.maxSteps node.span with
      | (false, state) => some ("", state)
      | (true, state) =>
          match (Action.carryOut node).perform environment below state with
          | none => none
          | some (text, state) =>
              match renderAll environment below rest state with
              | none => none
              | some (more, state) => some (text ++ more, state)

/-- How expressions and statements are carried out when evaluation may be nested to a depth. -/
def belowDepth (environment : Environment) : Nat → Below
  | 0 => ⟨fun _ _ => none, fun _ _ => none, fun _ _ _ => none⟩
  | depth + 1 =>
      { eval := fun expr state =>
          (Action.evaluate expr).perform environment (belowDepth environment depth) state
        render := fun nodes state =>
          renderAll environment (belowDepth environment depth) nodes state
        ascend := fun overrides parent state =>
          (Action.ascendTo overrides parent).perform environment (belowDepth environment depth)
            state }

end Stencil.Render
