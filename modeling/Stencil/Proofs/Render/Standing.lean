import Stencil.Render.Perform

/-!
Contract: what a part of a render does to the stacks and the variables of the render.

Owns:
- where a render stands: its place, and its frames of variables;
- relations between two standings that single requests uphold, and so do whole renders: what each
  request does is looked at once, in `Action.upholds_perform`;
- carrying out one action after another.

Does not own: the relations (`Stencil.Proofs.Render.Balance`, `Stencil.Proofs.Render.Frames`).
-/

set_option autoImplicit false

namespace Stencil.Render

open Stencil.Host (Environment)
open Stencil.Syntax (Expr Node)
open Stencil.Text (Span)

variable {α β : Type} {environment : Environment} {below : Below}

/-- The part of a render's state that entering and leaving settings is about. -/
structure Standing where
  place : Place
  scopes : Scopes

def View.standing (view : View) : Standing := ⟨view.place, view.scopes⟩

namespace Setting

/-- Where a render stands inside a setting. -/
def into (setting : Setting) (standing : Standing) : Standing :=
  ⟨setting.place standing.place, setting.scopes standing.scopes⟩

/-- Where a render stands behind a setting that was entered from `before`. -/
def outOf (setting : Setting) (before after : Standing) : Standing :=
  ⟨setting.placeAfter before.place after.place, setting.scopesAfter before.scopes after.scopes⟩

theorem standing_enter (setting : Setting) (view : View) :
    (setting.enter view).standing = setting.into view.standing := rfl

theorem standing_leave (setting : Setting) (before after : View) :
    (setting.leave before after).standing = setting.outOf before.standing after.standing := by
  cases setting <;> rfl

end Setting

/-! ### Requests that leave a render where it stands -/

namespace State

theorem standing_reportLoaded (state : State) (loaded : Host.Loaded) :
    (state.reportLoaded loaded).standing = state.standing := by
  unfold reportLoaded
  split <;> rfl

theorem standing_load (environment : Environment) (state : State) (name : String) :
    (state.load environment name).2.standing = state.standing := by
  unfold load
  split
  · exact standing_reportLoaded _ _
  · rfl

theorem standing_tick (state : State) (maxSteps : Option Nat) (span : Span) :
    (state.tick maxSteps span).2.standing = state.standing := by
  unfold tick
  split
  · rfl
  · dsimp only
    split
    · rfl
    · split <;> rfl

end State

/-! ### One action after another -/

theorem Action.perform_eval (expr : Expr) (next : Value → Action α) (state : State) :
    (Action.eval expr next).perform environment below state =
      (below.eval expr state).bind fun answer =>
        (next answer.1).perform environment below answer.2 := by
  rw [perform]
  cases below.eval expr state <;> rfl

theorem Action.perform_render (nodes : List Node) (next : String → Action α) (state : State) :
    (Action.render nodes next).perform environment below state =
      (below.render nodes state).bind fun answer =>
        (next answer.1).perform environment below answer.2 := by
  rw [perform]
  cases below.render nodes state <;> rfl

theorem Action.perform_ascend (overrides : Overrides) (parent : Expr) (next : String → Action α)
    (state : State) :
    (Action.ascend overrides parent next).perform environment below state =
      (below.ascend overrides parent state).bind fun answer =>
        (next answer.1).perform environment below answer.2 := by
  rw [perform]
  cases below.ascend overrides parent state <;> rfl

theorem Action.perform_within (setting : Setting) (inner : Action β) (next : β → Action α)
    (state : State) :
    (Action.within setting inner next).perform environment below state =
      (inner.perform environment below { state with toView := setting.enter state.toView }).bind
        fun answer => (next answer.1).perform environment below
          { answer.2 with toView := setting.leave state.toView answer.2.toView } := by
  rw [perform]
  cases inner.perform environment below { state with toView := setting.enter state.toView } <;> rfl

/-- Statements are rendered one after another as long as there are steps left for them. -/
theorem renderAll_cons (node : Node) (rest : List Node) (state : State) :
    renderAll environment below (node :: rest) state =
      if (state.tick environment.maxSteps node.span).1 then
        ((Action.carryOut node).perform environment below
          (state.tick environment.maxSteps node.span).2).bind fun first =>
            (renderAll environment below rest first.2).map fun others =>
              (first.1 ++ others.1, others.2)
      else some ("", (state.tick environment.maxSteps node.span).2) := by
  rw [renderAll]
  rcases state.tick environment.maxSteps node.span with ⟨goesOn, ticked⟩
  cases goesOn with
  | false => rfl
  | true =>
      dsimp only
      cases (Action.carryOut node).perform environment below ticked with
      | none => rfl
      | some first =>
          dsimp only [Option.bind]
          cases renderAll environment below rest first.2 <;> rfl

/-- An action that goes on with another one is carried out by carrying out both in order. -/
theorem Action.perform_andThen (first : Action α) (rest : α → Action β) (state : State) :
    (first.andThen rest).perform environment below state =
      (first.perform environment below state).bind fun answer =>
        (rest answer.1).perform environment below answer.2 := by
  induction first generalizing state with
  | done answer => rfl
  | eval expr next inductionHypothesis =>
      rw [andThen, perform, perform]
      cases below.eval expr state with
      | none => rfl
      | some answer => exact inductionHypothesis answer.1 rest answer.2
  | render nodes next inductionHypothesis =>
      rw [andThen, perform, perform]
      cases below.render nodes state with
      | none => rfl
      | some answer => exact inductionHypothesis answer.1 rest answer.2
  | ascend overrides parent next inductionHypothesis =>
      rw [andThen, perform, perform]
      cases below.ascend overrides parent state with
      | none => rfl
      | some answer => exact inductionHypothesis answer.1 rest answer.2
  | look next inductionHypothesis => exact inductionHypothesis _ rest state
  | consult next inductionHypothesis => exact inductionHypothesis _ rest state
  | survey next inductionHypothesis => exact inductionHypothesis _ rest state
  | report diagnostic next inductionHypothesis => exact inductionHypothesis rest _
  | complain lookup diagnostic next inductionHypothesis => exact inductionHypothesis rest _
  | bindName name value next inductionHypothesis => exact inductionHypothesis rest _
  | store root path key value next inductionHypothesis => exact inductionHypothesis _ rest _
  | define name callable next inductionHypothesis => exact inductionHypothesis rest _
  | mount name macros next inductionHypothesis => exact inductionHypothesis rest _
  | load name next inductionHypothesis => exact inductionHypothesis _ rest _
  | within setting inner next _ inductionHypothesis =>
      rw [andThen, perform, perform]
      cases inner.perform environment below { state with toView := setting.enter state.toView } with
      | none => rfl
      | some answer => exact inductionHypothesis answer.1 rest _

theorem Action.perform_textOf (nodes : List Node) :
    (textOf nodes).perform environment below = below.render nodes := by
  funext state
  rw [textOf, perform]
  cases below.render nodes state <;> rfl

theorem Action.perform_ascent (overrides : Overrides) (parent : Expr) (state : State) :
    (ascend overrides parent .done).perform environment below state =
      below.ascend overrides parent state := by
  rw [perform]
  cases below.ascend overrides parent state <;> rfl

theorem Action.perform_inSetting_of_inner {setting : Setting} {inner : Action α} {state after : State}
    {answer : α}
    (performed : inner.perform environment below
      { state with toView := setting.enter state.toView } = some (answer, after)) :
    (inSetting setting inner).perform environment below state =
      some (answer, { after with toView := setting.leave state.toView after.toView }) := by
  rw [inSetting, perform_within, performed]
  rfl

/-- A part of a render in a setting. -/
def Run.inSetting (setting : Setting) (run : Run α) : Run α := fun state =>
  (run { state with toView := setting.enter state.toView }).map fun answer =>
    (answer.1, { answer.2 with toView := setting.leave state.toView answer.2.toView })

theorem Action.perform_inSetting {below : Below} (setting : Setting) (inner : Action α) :
    (inSetting setting inner).perform environment below =
      Run.inSetting setting (inner.perform environment below) := by
  funext state
  rw [inSetting, perform_within]
  unfold Run.inSetting
  cases inner.perform environment below { state with toView := setting.enter state.toView } <;> rfl

/-! ### Relations between standings -/

/-- Whether a relation between two standings of a render is upheld by everything that a request can
do to them. -/
structure Upheld (rel : Standing → Standing → Prop) : Prop where
  refl : ∀ standing, rel standing standing
  trans : ∀ {first second third}, rel first second → rel second third → rel first third
  /-- A variable of the innermost frame is bound. -/
  bind : ∀ (standing : Standing) (name : String) (value : Value),
    rel standing { standing with scopes := standing.scopes.bind name value }
  /-- A part of a variable is changed. -/
  store : ∀ (standing : Standing) {root : String} {path : List Value.Key} {key : Value.Key}
    {old part new : Value}, standing.scopes.lookup? root = some old →
    old.store (path ++ [key]) part = .ok new →
    rel standing { standing with scopes := standing.scopes.replace root new }
  /-- A setting is entered and left again. -/
  setting : ∀ (setting : Setting) {before after : Standing}, rel (setting.into before) after →
    rel before (setting.outOf before after)

/-- Whether a part of a render upholds a relation, whatever state it starts from. -/
def Run.Upholds (rel : Standing → Standing → Prop) (run : Run α) : Prop :=
  ∀ ⦃state after : State⦄ ⦃answer : α⦄, run state = some (answer, after) →
    rel state.standing after.standing

structure Below.Upholds (rel : Standing → Standing → Prop) (below : Below) : Prop where
  eval : ∀ expr, (below.eval expr).Upholds rel
  render : ∀ nodes, (below.render nodes).Upholds rel
  ascend : ∀ overrides parent, (below.ascend overrides parent).Upholds rel

variable {rel : Standing → Standing → Prop}

theorem Run.Upholds.andThen {first : Action α} {rest : α → Action β}
    (trans : ∀ {before middle after}, rel before middle → rel middle after → rel before after)
    (firstUpholds : Run.Upholds rel (first.perform environment below))
    (restUpholds : ∀ answer, Run.Upholds rel ((rest answer).perform environment below)) :
    Run.Upholds rel ((first.andThen rest).perform environment below) := by
  intro state after answer performed
  rw [Action.perform_andThen] at performed
  obtain ⟨middle, isMiddle, isAfter⟩ := Option.bind_eq_some_iff.mp performed
  exact trans (firstUpholds isMiddle) (restUpholds middle.1 isAfter)

/-- What a part of a render upholds inside a setting, it upholds around it. -/
theorem Run.Upholds.inSetting {run : Run α} (upholds : run.Upholds rel) (upheld : Upheld rel)
    (setting : Setting) : (Run.inSetting setting run).Upholds rel := by
  intro state after answer isAnswer
  obtain ⟨⟨found, inside⟩, isInside, isLeft⟩ := Option.map_eq_some_iff.mp isAnswer
  cases isLeft
  have entered := upholds isInside
  rw [Setting.standing_enter] at entered
  rw [Setting.standing_leave]
  exact upheld.setting setting entered

theorem Upheld.store_state (upheld : Upheld rel) (root : String) (path : List Value.Key)
    (key : Value.Key) (part : Value) (state : State) :
    rel state.standing (state.store root path key part).2.standing := by
  unfold State.store
  split
  · exact upheld.refl _
  · rename_i old isOld
    split
    · exact upheld.refl _
    · rename_i new isNew
      exact upheld.store state.standing isOld isNew

/-- What each request upholds, a whole action upholds. -/
theorem Action.upholds_perform (upheld : Upheld rel) (deeper : below.Upholds rel)
    (action : Action α) : Run.Upholds rel (action.perform environment below) := by
  intro state after answer performed
  induction action generalizing state after with
  | done answer =>
      cases performed
      exact upheld.refl _
  | eval expr next inductionHypothesis =>
      rw [perform] at performed
      split at performed
      · cases performed
      · rename_i value middle isValue
        exact upheld.trans (deeper.eval expr isValue) (inductionHypothesis value performed)
  | render nodes next inductionHypothesis =>
      rw [perform] at performed
      split at performed
      · cases performed
      · rename_i text middle isText
        exact upheld.trans (deeper.render nodes isText) (inductionHypothesis text performed)
  | ascend overrides parent next inductionHypothesis =>
      rw [perform] at performed
      split at performed
      · cases performed
      · rename_i text middle isText
        exact upheld.trans (deeper.ascend overrides parent isText)
          (inductionHypothesis text performed)
  | look next inductionHypothesis => exact inductionHypothesis _ performed
  | consult next inductionHypothesis => exact inductionHypothesis _ performed
  | survey next inductionHypothesis => exact inductionHypothesis _ performed
  | report diagnostic next inductionHypothesis =>
      rw [perform] at performed
      have rest := inductionHypothesis performed
      exact rest
  | complain lookup diagnostic next inductionHypothesis =>
      rw [perform] at performed
      have rest := inductionHypothesis performed
      split at rest <;> exact rest
  | bindName name value next inductionHypothesis =>
      rw [perform] at performed
      exact upheld.trans (upheld.bind state.standing name value) (inductionHypothesis performed)
  | store root path key value next inductionHypothesis =>
      rw [perform] at performed
      exact upheld.trans (upheld.store_state root path key value state)
        (inductionHypothesis _ performed)
  | define name callable next inductionHypothesis =>
      rw [perform] at performed
      have rest := inductionHypothesis performed
      exact rest
  | mount name macros next inductionHypothesis =>
      rw [perform] at performed
      have rest := inductionHypothesis performed
      exact rest
  | load name next inductionHypothesis =>
      rw [perform] at performed
      have rest := inductionHypothesis _ performed
      exact State.standing_load environment state name ▸ rest
  | within setting inner next innerHypothesis nextHypothesis =>
      rw [perform] at performed
      split at performed
      · cases performed
      · rename_i answer inside isAnswer
        have entered := innerHypothesis isAnswer
        have behind := nextHypothesis _ performed
        rw [Setting.standing_enter] at entered
        rw [Setting.standing_leave] at behind
        exact upheld.trans (upheld.setting setting entered) behind

theorem upholds_renderAll (upheld : Upheld rel) (deeper : below.Upholds rel) (nodes : List Node) :
    Run.Upholds rel (renderAll environment below nodes) := by
  intro state after text rendered
  induction nodes generalizing state after text with
  | nil =>
      cases rendered
      exact upheld.refl _
  | cons node rest inductionHypothesis =>
      have ticks := State.standing_tick state environment.maxSteps node.span
      rw [renderAll] at rendered
      split at rendered
      · rename_i ticked isTicked
        cases rendered
        rw [isTicked] at ticks
        exact ticks ▸ upheld.refl _
      · rename_i ticked isTicked
        rw [isTicked] at ticks
        split at rendered
        · cases rendered
        · rename_i first middle isFirst
          split at rendered
          · cases rendered
          · rename_i more last isMore
            cases rendered
            have one := Action.upholds_perform upheld deeper _ isFirst
            exact upheld.trans (ticks ▸ one) (inductionHypothesis isMore)

/-- Expressions, statements and chains of templates uphold the relation at any depth. -/
theorem upholds_belowDepth (upheld : Upheld rel) (environment : Environment) (depth : Nat) :
    (belowDepth environment depth).Upholds rel := by
  induction depth with
  | zero => exact ⟨fun _ _ _ _ => nofun, fun _ _ _ _ => nofun, fun _ _ _ _ _ => nofun⟩
  | succ depth inductionHypothesis =>
      exact ⟨fun _ => Action.upholds_perform upheld inductionHypothesis _,
        fun nodes => upholds_renderAll upheld inductionHypothesis nodes,
        fun _ _ => Action.upholds_perform upheld inductionHypothesis _⟩

end Stencil.Render
