import Stencil.Proofs.Render.Accord
import Stencil.Proofs.Render.Balance
import Stencil.Proofs.Render.Depth

/-!
Contract: what a render never takes back.

Owns:
- reports are only added, behind those that are there;
- without a limit on steps, a render never runs out of them.

Does not own: what is reported (`Stencil.Render.Problem`).
-/

set_option autoImplicit false

namespace Stencil.Render

open Stencil.Host (Environment)
open Stencil.Syntax (Expr Node)
open Stencil.Text (Span)

variable {α β : Type} {environment : Environment} {below : Below}

/-- Whether a render has only added to its reports, and has not run out of steps without a limit. -/
structure Ahead (environment : Environment) (state after : State) : Prop where
  problems : state.problems.toList <+: after.problems.toList
  halted : environment.maxSteps = none → after.halted = state.halted

namespace Ahead

variable {state middle after : State}

theorem of_seen (problems : after.problems = state.problems) (halted : after.halted = state.halted) :
    Ahead environment state after :=
  ⟨problems ▸ List.prefix_refl _, fun _ => halted⟩

theorem refl (state : State) : Ahead environment state state := of_seen rfl rfl

theorem trans (one : Ahead environment state middle) (two : Ahead environment middle after) :
    Ahead environment state after :=
  ⟨one.problems.trans two.problems, fun isFree => (two.halted isFree).trans (one.halted isFree)⟩

theorem report (state : State) (diagnostic : Report.Diagnostic) :
    Ahead environment state (state.report diagnostic) where
  problems := by simp [State.report]
  halted _ := rfl

theorem load (environment : Environment) (name : String) (state : State) :
    Ahead environment state (state.load environment name).2 := by
  cases isAnswer : (Host.Shelf.fetch environment name state.shelf).1 with
  | error fault =>
      rw [State.load_of_error isAnswer]
      exact of_seen rfl rfl
  | ok loaded =>
      rw [State.load_of_ok isAnswer]
      unfold State.reportLoaded
      split
      · exact of_seen rfl rfl
      · exact ⟨by simp, fun _ => rfl⟩

theorem tick (environment : Environment) (span : Span) (state : State) :
    Ahead environment state (state.tick environment.maxSteps span).2 := by
  cases goesOn : state.goesOn environment.maxSteps with
  | true =>
      rw [State.tick_of_goesOn span goesOn]
      exact of_seen rfl rfl
  | false =>
      cases isHalted : state.halted with
      | true =>
          rw [State.tick_of_halted _ _ isHalted]
          exact refl state
      | false =>
          cases isLimit : environment.maxSteps with
          | none => simp [State.goesOn, isHalted, isLimit] at goesOn
          | some limit =>
              have stops : ¬state.steps + 1 ≤ limit := by
                simpa [State.goesOn, isHalted, isLimit] using goesOn
              rw [State.tick_of_stops isHalted stops]
              refine ⟨by simp [State.report], fun isFree => ?_⟩
              cases isLimit.symm.trans isFree

end Ahead

/-- Whether all answers of a part of a render come with states ahead of the one it starts from. -/
def Run.Advances (environment : Environment) (run : Run α) : Prop :=
  ∀ ⦃state after : State⦄ ⦃answer : α⦄, run state = some (answer, after) →
    Ahead environment state after

structure Below.Advances (environment : Environment) (below : Below) : Prop where
  eval : ∀ expr, (below.eval expr).Advances environment
  render : ∀ nodes, (below.render nodes).Advances environment
  ascend : ∀ overrides parent, (below.ascend overrides parent).Advances environment

theorem Run.Advances.bind {run : Run α} {rest : α → Run β} (first : run.Advances environment)
    (second : ∀ answer, (rest answer).Advances environment) :
    Run.Advances environment fun state =>
      (run state).bind fun answer => rest answer.1 answer.2 := by
  intro state after answer isAnswer
  obtain ⟨middle, isMiddle, isAnswer⟩ := Option.bind_eq_some_iff.mp isAnswer
  exact (first isMiddle).trans (second middle.1 isAnswer)

/-- A change that a part of a render makes first. -/
theorem Run.Advances.behind {run : Run α} (change : State → State)
    (ahead : ∀ state, Ahead environment state (change state)) (advances : run.Advances environment) :
    Run.Advances environment fun state => run (change state) :=
  fun state _ _ isAnswer => (ahead state).trans (advances isAnswer)

theorem Action.advances_perform (deeper : below.Advances environment) (action : Action α) :
    Run.Advances environment (action.perform environment below) := by
  induction action with
  | done answer =>
      intro state after result isAnswer
      cases isAnswer
      exact .refl _
  | eval expr next inductionHypothesis =>
      simp only [Run.Advances, perform_eval]
      exact (deeper.eval expr).bind inductionHypothesis
  | render nodes next inductionHypothesis =>
      simp only [Run.Advances, perform_render]
      exact (deeper.render nodes).bind inductionHypothesis
  | ascend overrides parent next inductionHypothesis =>
      simp only [Run.Advances, perform_ascend]
      exact (deeper.ascend overrides parent).bind inductionHypothesis
  | look next inductionHypothesis =>
      exact fun state _ _ performed => inductionHypothesis state.toView performed
  | consult next inductionHypothesis => exact inductionHypothesis _
  | survey next inductionHypothesis => exact inductionHypothesis _
  | report diagnostic next inductionHypothesis =>
      exact inductionHypothesis.behind (·.report diagnostic) fun state => .report state diagnostic
  | complain lookup diagnostic next inductionHypothesis =>
      refine inductionHypothesis.behind (fun state =>
        if lookup.isStrict environment.strict then state.report diagnostic else state) fun state => ?_
      split
      · exact .report state diagnostic
      · exact .refl state
  | bindName name value next inductionHypothesis =>
      exact inductionHypothesis.behind (fun state =>
        { state with scopes := state.scopes.bind name value }) fun _ => .of_seen rfl rfl
  | store root path key value next inductionHypothesis =>
      intro state after result performed
      simp only [perform, State.store_eq] at performed
      have ahead := inductionHypothesis _ performed
      exact ⟨ahead.problems, ahead.halted⟩
  | define name callable next inductionHypothesis =>
      exact inductionHypothesis.behind (fun state =>
        { state with macros := state.macros.put name callable }) fun _ => .of_seen rfl rfl
  | mount name macros next inductionHypothesis =>
      exact inductionHypothesis.behind (fun state =>
        { state with namespaces := state.namespaces.put name macros }) fun _ => .of_seen rfl rfl
  | load name next inductionHypothesis =>
      intro state after result performed
      exact (Ahead.load environment name state).trans (inductionHypothesis _ performed)
  | within setting inner next innerHypothesis nextHypothesis =>
      intro state after result performed
      rw [perform_within] at performed
      obtain ⟨⟨answer, inside⟩, isInside, performed⟩ := Option.bind_eq_some_iff.mp performed
      have entered : Ahead environment state inside :=
        ⟨(innerHypothesis isInside).problems, (innerHypothesis isInside).halted⟩
      have left : Ahead environment inside
          { inside with toView := setting.leave state.toView inside.toView } :=
        .of_seen rfl (by cases setting <;> rfl)
      exact entered.trans (left.trans (nextHypothesis answer performed))

theorem advances_renderAll (deeper : below.Advances environment) (nodes : List Node) :
    Run.Advances environment (renderAll environment below nodes) := by
  intro state after text rendered
  induction nodes generalizing state after text with
  | nil =>
      cases rendered
      exact .refl _
  | cons node rest inductionHypothesis =>
      have ticks := Ahead.tick environment node.span state
      rw [renderAll_cons] at rendered
      split at rendered
      · obtain ⟨first, isFirst, rendered⟩ := Option.bind_eq_some_iff.mp rendered
        obtain ⟨others, areOthers, isResult⟩ := Option.map_eq_some_iff.mp rendered
        cases isResult
        exact ticks.trans ((Action.advances_perform deeper _ isFirst).trans
          (inductionHypothesis areOthers))
      · cases rendered
        exact ticks

theorem advances_belowDepth (environment : Environment) (depth : Nat) :
    (belowDepth environment depth).Advances environment := by
  induction depth with
  | zero => exact ⟨fun _ _ _ _ => nofun, fun _ _ _ _ => nofun, fun _ _ _ _ _ => nofun⟩
  | succ depth inductionHypothesis =>
      exact ⟨fun _ => Action.advances_perform inductionHypothesis _,
        fun nodes => advances_renderAll inductionHypothesis nodes,
        fun _ _ => Action.advances_perform inductionHypothesis _⟩

theorem advances_unbounded (environment : Environment) :
    (unbounded environment).Advances environment := by
  refine ⟨fun expr state after value isValue => ?_, fun nodes state after text isText => ?_,
    fun overrides parent state after text isText => ?_⟩
  · obtain ⟨depth, isValue⟩ := ((rising_eval environment expr).limit_eq_some _ _).mp isValue
    exact (advances_belowDepth environment depth).eval expr isValue
  · obtain ⟨depth, isText⟩ := ((rising_render environment nodes).limit_eq_some _ _).mp isText
    exact (advances_belowDepth environment depth).render nodes isText
  · obtain ⟨depth, isText⟩ :=
      ((rising_ascend environment overrides parent).limit_eq_some _ _).mp isText
    exact (advances_belowDepth environment depth).ascend overrides parent isText

/-- Without a limit on steps, no render has run out of them anywhere. -/
theorem Reaches.running {task : Task} {state : State} (isFree : environment.maxSteps = none)
    (reached : Reaches environment task state) : state.halted = false := by
  induction reached with
  | template | named => rfl
  | first _ inductionHypothesis | eval _ inductionHypothesis | ascend _ inductionHypothesis
  | within _ inductionHypothesis | render _ inductionHypothesis => exact inductionHypothesis
  | next depth _ performed inductionHypothesis =>
      have ahead := Action.advances_perform (advances_belowDepth environment depth) _ performed
      exact (ahead.halted isFree).trans inductionHypothesis
  | @statement node _ state _ _ isTicked inductionHypothesis =>
      have ticks := (Ahead.tick environment node.span state).halted isFree
      rw [isTicked] at ticks
      exact ticks.trans inductionHypothesis
  | @rest node _ state _ _ _ depth _ isTicked performed inductionHypothesis =>
      have ticks := (Ahead.tick environment node.span state).halted isFree
      rw [isTicked] at ticks
      have ahead := Action.advances_perform (advances_belowDepth environment depth) _ performed
      exact (ahead.halted isFree).trans (ticks.trans inductionHypothesis)

end Stencil.Render
