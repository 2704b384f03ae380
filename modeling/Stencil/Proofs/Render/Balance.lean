import Stencil.Proofs.Render.Standing
import Stencil.Render.Outcome

/-!
Contract: a render leaves its stacks as it finds them.

Owns:
- the states that a render can reach;
- what is the same behind any statements and any expression: the place, and the number of frames;
- what holds in every state that a render can reach.

Does not own: what is in the frames (`Stencil.Proofs.Render.Frames`).
-/

set_option autoImplicit false

namespace Stencil.Render

open Stencil.Host (Environment Shelf)
open Stencil.Syntax (Expr Node Template)

variable {environment : Environment}

/-! ### Settings -/

namespace Setting

/-- What happens to the stacks inside a setting does not matter as long as it is undone there. -/
theorem placeAfter_place (setting : Setting) (place : Place) :
    setting.placeAfter place (setting.place place) = place := by
  cases setting with
  | callSite =>
      obtain ⟨loads, templates, overrides, supers, callers, homes, loopDepth, callDepth⟩ := place
      cases callers <;> cases homes <;> rfl
  | embedded withContext => cases withContext <;> rfl
  | _ => rfl

theorem depth_scopesAfter (setting : Setting) {before after : Scopes}
    (sameInside : after.depth = (setting.scopes before).depth) :
    (setting.scopesAfter before after).depth = before.depth := by
  cases setting with
  | frame bindings =>
      have oneMore : after.depth = before.depth + 1 := sameInside
      have isInside : 1 < after.depth := oneMore ▸ Nat.succ_lt_succ (Nat.succ_pos _)
      have left := Scopes.depth_pop isInside
      rw [oneMore] at left
      exact Nat.succ.inj left
  | embedded withContext =>
      cases withContext with
      | true => exact sameInside
      | false => rfl
  | _ => exact sameInside

/-- Settings put as much on the stack of callers as on that of homes. -/
theorem length_callers_place (setting : Setting) {place : Place}
    (paired : place.callers.length = place.homes.length) :
    (setting.place place).callers.length = (setting.place place).homes.length := by
  cases setting with
  | call caller home => exact congrArg (· + 1) paired
  | callSite =>
      simp only [Setting.place, List.length_tail]
      omega
  | embedded withContext => rfl
  | _ => exact paired

end Setting

/-! ### Balance -/

/-- Whether the stacks of two states are the same: the templates being rendered and being executed,
the definitions of blocks that count, the blocks and the callers and homes of the macros that the
render is inside of, the depths of loops and calls, and the number of frames. -/
structure Balanced (before after : State) : Prop where
  place : after.place = before.place
  depth : after.scopes.depth = before.scopes.depth

theorem upheld_balance : Upheld fun before after =>
    after.place = before.place ∧ after.scopes.depth = before.scopes.depth where
  refl _ := ⟨rfl, rfl⟩
  trans first second := ⟨second.1.trans first.1, second.2.trans first.2⟩
  bind _ _ _ := ⟨rfl, rfl⟩
  store _ _ _ _ _ _ _ _ _ := ⟨rfl, Scopes.depth_replace _ _ _⟩
  setting setting before after inside := by
    refine ⟨?_, setting.depth_scopesAfter inside.2⟩
    calc setting.placeAfter before.place after.place
        = setting.placeAfter before.place (setting.place before.place) := by rw [inside.1]; rfl
      _ = before.place := setting.placeAfter_place before.place

theorem balanced_render (depth : Nat) {nodes : List Node} {state after : State} {text : String}
    (rendered : (belowDepth environment depth).render nodes state = some (text, after)) :
    Balanced state after :=
  have kept := (upholds_belowDepth upheld_balance environment depth).render nodes rendered
  ⟨kept.1, kept.2⟩

theorem balanced_eval (depth : Nat) {expr : Expr} {state after : State} {value : Value}
    (evaluated : (belowDepth environment depth).eval expr state = some (value, after)) :
    Balanced state after :=
  have kept := (upholds_belowDepth upheld_balance environment depth).eval expr evaluated
  ⟨kept.1, kept.2⟩

theorem balanced_perform (depth : Nat) {α : Type} {action : Action α} {state after : State}
    {answer : α}
    (performed : action.perform environment (belowDepth environment depth) state =
      some (answer, after)) :
    Balanced state after :=
  have kept := Action.upholds_perform upheld_balance
    (upholds_belowDepth upheld_balance environment depth) action performed
  ⟨kept.1, kept.2⟩

/-! ### What a render can reach -/

/-- What a render is about to do: to carry out an action, or statements one after another. -/
inductive Task : Type 1 where
  | action {α : Type} (action : Action α)
  | statements (nodes : List Node)

/-- The tasks that come up in renders with the state that each of them starts from, however deeply
the render is nested there. -/
inductive Reaches (environment : Environment) : Task → State → Prop where
  /-- The start of the render of a parsed template. -/
  | template (name : String) (template : Template) (context : Table Value) (shelf : Shelf) :
      Reaches environment (.action (Action.renderTemplate name template)) (.initial context shelf)
  /-- The start of the render of a template by name. -/
  | named (name : String) (context : Table Value) (shelf : Shelf) :
      Reaches environment (.action (Action.renderNamed name)) (.initial context shelf)
  | first {α β : Type} {first : Action α} {rest : α → Action β} {state : State} :
      Reaches environment (.action (first.andThen rest)) state →
      Reaches environment (.action first) state
  | next {α β : Type} {first : Action α} {rest : α → Action β} {state after : State} {answer : α}
      (depth : Nat) :
      Reaches environment (.action (first.andThen rest)) state →
      first.perform environment (belowDepth environment depth) state = some (answer, after) →
      Reaches environment (.action (rest answer)) after
  | eval {expr : Expr} {state : State} :
      Reaches environment (.action (Action.valueOf expr)) state →
      Reaches environment (.action (Action.evaluate expr)) state
  | ascend {overrides : Overrides} {parent : Expr} {state : State} :
      Reaches environment (.action (.ascend overrides parent .done)) state →
      Reaches environment (.action (Action.ascendTo overrides parent)) state
  /-- Inside a setting. -/
  | within {α : Type} {setting : Setting} {inner : Action α} {state : State} :
      Reaches environment (.action (Action.inSetting setting inner)) state →
      Reaches environment (.action inner) { state with toView := setting.enter state.toView }
  | render {nodes : List Node} {state : State} :
      Reaches environment (.action (Action.textOf nodes)) state →
      Reaches environment (.statements nodes) state
  /-- A statement that the render still has a step for. -/
  | statement {node : Node} {rest : List Node} {state ticked : State} :
      Reaches environment (.statements (node :: rest)) state →
      state.tick environment.maxSteps node.span = (true, ticked) →
      Reaches environment (.action (Action.carryOut node)) ticked
  | rest {node : Node} {rest : List Node} {state ticked after : State} {text : String}
      (depth : Nat) :
      Reaches environment (.statements (node :: rest)) state →
      state.tick environment.maxSteps node.span = (true, ticked) →
      (Action.carryOut node).perform environment (belowDepth environment depth) ticked =
        some (text, after) →
      Reaches environment (.statements rest) after

/-- Each macro that a render is inside of has both a caller, even if none was handed to it, and a
home. -/
theorem Reaches.length_callers {task : Task} {state : State}
    (reached : Reaches environment task state) :
    state.place.callers.length = state.place.homes.length := by
  induction reached with
  | template => rfl
  | named => rfl
  | first _ inductionHypothesis => exact inductionHypothesis
  | next depth _ performed inductionHypothesis =>
      rw [(balanced_perform depth performed).place]
      exact inductionHypothesis
  | eval _ inductionHypothesis => exact inductionHypothesis
  | ascend _ inductionHypothesis => exact inductionHypothesis
  | @within _ setting _ _ _ inductionHypothesis =>
      exact setting.length_callers_place inductionHypothesis
  | render _ inductionHypothesis => exact inductionHypothesis
  | @statement node _ state ticked _ isTicked inductionHypothesis =>
      have ticks := State.standing_tick state environment.maxSteps node.span
      rw [isTicked] at ticks
      have same : ticked.place = state.place := congrArg Standing.place ticks
      rw [same]
      exact inductionHypothesis
  | @rest node _ state ticked _ _ depth _ isTicked performed inductionHypothesis =>
      have ticks := State.standing_tick state environment.maxSteps node.span
      rw [isTicked] at ticks
      have same : ticked.place = state.place := congrArg Standing.place ticks
      rw [(balanced_perform depth performed).place, same]
      exact inductionHypothesis

/-- Wherever a render stands, any statements and any expression leave all stacks as they were,
whatever they report and whether or not the render runs out of steps. There is always a frame, and
there are as many callers as homes. -/
theorem stacks_balanced {task : Task} {state : State} (reached : Reaches environment task state) :
    (∀ (depth : Nat) (nodes : List Node) (text : String) (after : State),
      (belowDepth environment depth).render nodes state = some (text, after) →
      Balanced state after) ∧
    (∀ (depth : Nat) (expr : Expr) (value : Value) (after : State),
      (belowDepth environment depth).eval expr state = some (value, after) →
      Balanced state after) ∧
    state.scopes.frames ≠ [] ∧
    state.place.callers.length = state.place.homes.length := by
  refine ⟨?_, ?_, ?_, reached.length_callers⟩
  · intro depth nodes text after rendered
    exact balanced_render depth rendered
  · intro depth expr value after evaluated
    exact balanced_eval depth evaluated
  · exact List.cons_ne_nil _ _

/-- A template that defines a macro and calls it. -/
def greeter : Template :=
  let call := Expr.call (.name "greet" default) [] default
  ⟨none, [.define "greet" [] [.text "hello" default] default, .output call default], default⟩

/-- Inside the body of a macro there are a caller and a home, and they stay. -/
theorem stacks_balanced_in_macro :
    ∃ state after : State,
      Reaches .empty (.action (Action.textOf [.text "hello" default])) state ∧
      state.place.callers.length = 1 ∧ state.scopes.depth = 2 ∧
      (belowDepth .empty 1).render [.text "hello" default] state = some ("hello", after) ∧
      Balanced state after := by
  have start : Reaches .empty _ _ := .template "greeter" greeter [] .empty
  have defined := Reaches.next 0 (Reaches.within start) rfl
  have output := Reaches.statement (Reaches.rest 0 (Reaches.render defined) rfl rfl) rfl
  have call := Reaches.eval (Reaches.first output)
  have isMacro := Reaches.next 0 (Reaches.next 0 call rfl) rfl
  have framed := Reaches.next 0 (Reaches.next 0 (Reaches.next 0 isMacro rfl) rfl) rfl
  have inMacro := Reaches.within (Reaches.within (Reaches.first framed))
  exact ⟨_, _, inMacro, rfl, rfl, rfl,
    (stacks_balanced inMacro).1 1 [.text "hello" default] "hello" _ rfl⟩

end Stencil.Render
