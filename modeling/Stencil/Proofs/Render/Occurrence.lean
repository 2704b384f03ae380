import Stencil.Proofs.Render.Balance

/-!
Contract: the parts of one render, and how one comes up from another.

Owns:
- the steps from a part of a render to one that is inside it or comes next;
- the parts that come up in renders with a shelf to begin with, which are those of all renders.

Does not own: what holds wherever a render stands (`Stencil.Proofs.Render.Balance`,
`Stencil.Proofs.Render.Loads`).
-/

set_option autoImplicit false

namespace Stencil.Render

open Stencil.Host (Environment Shelf)
open Stencil.Syntax (Expr Node Template)

variable {environment : Environment}

/-- Whether a part of a render that starts from a state leads to another one, which is inside it or
comes next. -/
inductive Leads (environment : Environment) : Task → State → Task → State → Prop where
  | first {α β : Type} {first : Action α} {rest : α → Action β} {state : State} :
      Leads environment (.action (first.andThen rest)) state (.action first) state
  | next {α β : Type} {first : Action α} {rest : α → Action β} {state after : State} {answer : α}
      (depth : Nat)
      (performed : first.perform environment (belowDepth environment depth) state =
        some (answer, after)) :
      Leads environment (.action (first.andThen rest)) state (.action (rest answer)) after
  | eval {expr : Expr} {state : State} :
      Leads environment (.action (Action.valueOf expr)) state (.action (Action.evaluate expr)) state
  | ascend {overrides : Overrides} {parent : Expr} {state : State} :
      Leads environment (.action (.ascend overrides parent .done)) state
        (.action (Action.ascendTo overrides parent)) state
  | within {α : Type} {setting : Setting} {inner : Action α} {state : State} :
      Leads environment (.action (Action.inSetting setting inner)) state
        (.action inner) { state with toView := setting.enter state.toView }
  | render {nodes : List Node} {state : State} :
      Leads environment (.action (Action.textOf nodes)) state (.statements nodes) state
  | statement {node : Node} {rest : List Node} {state ticked : State}
      (isTicked : state.tick environment.maxSteps node.span = (true, ticked)) :
      Leads environment (.statements (node :: rest)) state (.action (Action.carryOut node)) ticked
  | rest {node : Node} {rest : List Node} {state ticked after : State} {text : String} (depth : Nat)
      (isTicked : state.tick environment.maxSteps node.span = (true, ticked))
      (performed : (Action.carryOut node).perform environment (belowDepth environment depth) ticked =
        some (text, after)) :
      Leads environment (.statements (node :: rest)) state (.statements rest) after

/-- The parts of the renders that begin with a shelf, each with the state that it starts from. -/
inductive Occurs (environment : Environment) (shelf : Shelf) : Task → State → Prop where
  /-- The start of the render of a parsed template. -/
  | template (name : String) (template : Template) (context : Table Value) :
      Occurs environment shelf (.action (Action.renderTemplate name template))
        (.initial context shelf)
  /-- The start of the render of a template by name. -/
  | named (name : String) (context : Table Value) :
      Occurs environment shelf (.action (Action.renderNamed name)) (.initial context shelf)
  | step {task next : Task} {state after : State} :
      Occurs environment shelf task state → Leads environment task state next after →
        Occurs environment shelf next after

/-- A part of a render is reached by as many steps as it takes. -/
theorem Reaches.step {task next : Task} {state after : State}
    (reached : Reaches environment task state) (leads : Leads environment task state next after) :
    Reaches environment next after := by
  cases leads with
  | first => exact reached.first
  | next depth performed => exact reached.next depth performed
  | eval => exact reached.eval
  | ascend => exact reached.ascend
  | within => exact reached.within
  | render => exact reached.render
  | statement isTicked => exact reached.statement isTicked
  | rest depth isTicked performed => exact reached.rest depth isTicked performed

/-- The states that renders reach are those that come up in renders with some shelf to begin with. -/
theorem reaches_iff_occurs {task : Task} {state : State} :
    Reaches environment task state ↔ ∃ shelf, Occurs environment shelf task state := by
  constructor
  · intro reached
    induction reached with
    | template name template context shelf => exact ⟨shelf, .template name template context⟩
    | named name context shelf => exact ⟨shelf, .named name context⟩
    | first _ inductionHypothesis => exact inductionHypothesis.imp fun _ occurs => occurs.step .first
    | next depth _ performed inductionHypothesis =>
        exact inductionHypothesis.imp fun _ occurs => occurs.step (.next depth performed)
    | eval _ inductionHypothesis => exact inductionHypothesis.imp fun _ occurs => occurs.step .eval
    | ascend _ inductionHypothesis =>
        exact inductionHypothesis.imp fun _ occurs => occurs.step .ascend
    | within _ inductionHypothesis =>
        exact inductionHypothesis.imp fun _ occurs => occurs.step .within
    | render _ inductionHypothesis =>
        exact inductionHypothesis.imp fun _ occurs => occurs.step .render
    | statement _ isTicked inductionHypothesis =>
        exact inductionHypothesis.imp fun _ occurs => occurs.step (.statement isTicked)
    | rest depth _ isTicked performed inductionHypothesis =>
        exact inductionHypothesis.imp fun _ occurs => occurs.step (.rest depth isTicked performed)
  · rintro ⟨shelf, occurs⟩
    induction occurs with
    | template name template context => exact .template name template context shelf
    | named name context => exact .named name context shelf
    | step _ leads inductionHypothesis => exact inductionHypothesis.step leads

end Stencil.Render
