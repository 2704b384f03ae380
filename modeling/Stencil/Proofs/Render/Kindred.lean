import Stencil.Proofs.Render.AkinNode

/-!
Contract: renders of trees that are akin go abreast.

Owns:
- what leads has an answer, or reports of too much, or both renders have the same answer, at any
  depth of evaluation;
- the same for actions at a place;
- kinships in which trees are akin to themselves.

Parentheses that the second tree does not have take the first render one level deeper. Where the
second render leads, the first one may hence be nested without a bound.

Does not own: kinships.
-/

set_option autoImplicit false

namespace Stencil.Render

open Stencil.Syntax

namespace Kinship

variable {kin : Kinship} {place place' : Place} {α β : Type}

/-- Parentheses take a render one level deeper. -/
theorem perform_group {environment : Host.Environment} {below : Below} (inner : Expr)
    (span : Text.Span) (state : State) :
    (Action.evaluate (.group inner span)).perform environment below state =
      below.eval inner state := by
  change (Action.valueOf inner).perform environment below state = _
  rw [Action.valueOf, Action.perform_eval]
  cases below.eval inner state <;> rfl

/-- Where the first render leads, the second one may be nested more deeply. -/
theorem Abreast.longer {rel : α → β → Prop} {run : Run α} {run' longer : Run β}
    (abreast : kin.Abreast .first place place' rel run run') (within : Run.Within run' longer) :
    kin.Abreast .first place place' rel run longer := by
  intro state state' together
  rcases abreast together with excused | ⟨answer, after, answer', after', isAnswer, isAnswer', rest⟩
  · exact .inl excused
  · exact .inr ⟨answer, after, answer', after', isAnswer, within isAnswer', rest⟩

/-- Nothing is said about renders the first of which has no answer, but leads. -/
theorem Abreast.first_none {rel : α → β → Prop} {run : Run α} {run' : Run β}
    (isNone : ∀ state, run state = none) : kin.Abreast .first place place' rel run run' :=
  fun state _ _ => .inl fun _ _ isAnswer => nomatch (isNone state).symm.trans isAnswer

/-- Actions that ask the same of two renders are carried out abreast where the parts are. -/
theorem Here.abreast_perform {lead : Lead} (here : kin.Here place place')
    (strict : lead = .second → ¬kin.lenient) {below below' : Below}
    (advances : below.Advances kin.environment) (carries : kin.Carries lead below below')
    {rel : α → α → Prop} {action action' : Action α}
    (alike : kin.Alike place place' rel action action') :
    kin.Abreast lead place place' rel (action.perform kin.environment below)
      (action'.perform kin.environment below') :=
  Kinship.abreast_perform here.sound strict advances carries alike here.akin

/-- Renders of trees that are akin go abreast at any depth. -/
theorem carries_belowDepth (sound : kin.Sound) (depth : Nat) :
    kin.Carries .first (belowDepth kin.environment depth)
      (belowDepth kin.environment depth) := by
  have strict : Lead.first = .second → ¬kin.lenient := nofun
  induction depth with
  | zero =>
      exact ⟨fun _ _ _ _ => .first_none fun _ => rfl, fun _ _ _ _ => .first_none fun _ => rfl,
        fun _ _ _ _ _ _ _ => .first_none fun _ => rfl⟩
  | succ depth inductionHypothesis =>
      have advances := advances_belowDepth kin.environment depth
      refine ⟨fun {place place'} akinPlace {expr expr'} akin => ?_,
        fun {place place'} akinPlace {nodes nodes'} akin => ?_,
        fun {place place'} akinPlace {overrides overrides' parent parent'} layers akin => ?_⟩
      all_goals have here : kin.Here place place' := ⟨sound, akinPlace⟩
      · rcases here.evaluate akin with ⟨inner, span, rfl, innerAkin⟩ | alike
        · have inside := (inductionHypothesis.eval akinPlace innerAkin).longer
            ((within_succ kin.environment depth).eval expr')
          have sameRun : (belowDepth kin.environment (depth + 1)).eval (.group inner span) =
            (belowDepth kin.environment depth).eval inner := funext (perform_group inner span)
          rw [sameRun]
          exact inside
        · exact here.abreast_perform strict advances inductionHypothesis alike
      · exact abreast_renderAll sound advances
          (fun akin => here.abreast_perform strict advances inductionHypothesis (here.carryOut akin))
          akin
      · exact here.abreast_perform strict advances inductionHypothesis (here.ascendTo layers akin)

/-- Actions that ask the same of two renders are carried out abreast at any depth. -/
theorem Here.abreast_belowDepth (here : kin.Here place place') {rel : α → α → Prop}
    {action action' : Action α} (alike : kin.Alike place place' rel action action') (depth : Nat) :
    kin.Abreast .first place place' rel
      (action.perform kin.environment (belowDepth kin.environment depth))
      (action'.perform kin.environment (belowDepth kin.environment depth)) :=
  have strict : Lead.first = .second → ¬kin.lenient := nofun
  here.abreast_perform strict (advances_belowDepth kin.environment depth)
    (carries_belowDepth here.sound depth) alike

/-- Nothing is said about renders the second of which has no answer, but leads. -/
theorem Abreast.second_none {rel : α → β → Prop} {run : Run α} {run' : Run β}
    (isNone : ∀ state, run' state = none) : kin.Abreast .second place place' rel run run' :=
  fun _ state' _ => .inl (isNone state')

/-- However many parentheses the first expression is in, both renders look into them at one
depth. -/
theorem Here.eval_unbounded (here : kin.Here place place') (strict : ¬kin.lenient) {depth : Nat}
    (carries : kin.Carries .second (unbounded kin.environment) (belowDepth kin.environment depth))
    (expr : Expr) {expr' : Expr} (akin : expr.Akin (kin.places place.source) expr') :
    kin.Abreast .second place place' Eq ((unbounded kin.environment).eval expr)
      ((belowDepth kin.environment (depth + 1)).eval expr') := by
  rw [Render.unbounded_eval]
  rcases here.evaluate akin with ⟨inner, span, rfl, innerAkin⟩ | alike
  · have sameRun : (Action.evaluate (.group inner span)).perform kin.environment
        (unbounded kin.environment) = (unbounded kin.environment).eval inner :=
      funext (perform_group inner span)
    rw [sameRun]
    exact here.eval_unbounded strict carries inner innerAkin
  · exact here.abreast_perform (fun _ => strict) (advances_unbounded kin.environment) carries alike
termination_by sizeOf expr

/-- Where the second render leads and has an answer, the first one has it at some depth. -/
theorem carries_unbounded (sound : kin.Sound) (strict : ¬kin.lenient) (depth : Nat) :
    kin.Carries .second (unbounded kin.environment) (belowDepth kin.environment depth) := by
  have advances := advances_unbounded kin.environment
  induction depth with
  | zero =>
      exact ⟨fun _ _ _ _ => .second_none fun _ => rfl, fun _ _ _ _ => .second_none fun _ => rfl,
        fun _ _ _ _ _ _ _ => .second_none fun _ => rfl⟩
  | succ depth inductionHypothesis =>
      refine ⟨fun {place place'} akinPlace {expr expr'} akin => ?_,
        fun {place place'} akinPlace {nodes nodes'} akin => ?_,
        fun {place place'} akinPlace {overrides overrides' parent parent'} layers akin => ?_⟩
      all_goals have here : kin.Here place place' := ⟨sound, akinPlace⟩
      · exact here.eval_unbounded strict inductionHypothesis expr akin
      · rw [unbounded_render]
        exact abreast_renderAll sound advances
          (fun akin => here.abreast_perform (fun _ => strict) advances inductionHypothesis
            (here.carryOut akin)) akin
      · rw [unbounded_ascend]
        exact here.abreast_perform (fun _ => strict) advances inductionHypothesis
          (here.ascendTo layers akin)

/-- If an action that leads has an answer at some depth, the first one has it at some depth, too. -/
theorem Here.abreast_unbounded (here : kin.Here place place') (strict : ¬kin.lenient)
    {rel : α → α → Prop} {action action' : Action α}
    (alike : kin.Alike place place' rel action action') (depth : Nat) :
    kin.Abreast .second place place' rel
      (action.perform kin.environment (unbounded kin.environment))
      (action'.perform kin.environment (belowDepth kin.environment depth)) :=
  here.abreast_perform (fun _ => strict) (advances_unbounded kin.environment)
    (carries_unbounded here.sound strict depth) alike

/-! ### Trees against themselves -/

/-- Whether everything is akin to itself. -/
structure Reflexive (kin : Kinship) : Prop where
  span : ∀ source span, kin.places source span span
  tag : ∀ source tag, kin.trees.tags source tag tag
  told : ∀ source diagnostic, kin.told source diagnostic diagnostic

namespace Reflexive

theorem nodes (reflexive : kin.Reflexive) (source : String) (nodes : List Node) :
    Nodes.Akin kin.trees source nodes nodes :=
  .refl (fun _ => reflexive.tag _ _) nodes fun _ _ =>
    ⟨fun span _ => reflexive.span source span, fun other span _ => reflexive.span other span⟩

theorem expr (reflexive : kin.Reflexive) (source : String) (expr : Expr) :
    expr.Akin (kin.places source) expr := .refl expr fun span _ => reflexive.span source span

theorem definition (reflexive : kin.Reflexive) (definition : MacroDefinition) :
    definition.Akin kin.trees definition :=
  ⟨rfl, fun source => List.forall₂_same.mpr fun param _ => .refl param fun _ _ span _ =>
    reflexive.span source span, fun source => reflexive.nodes source definition.body⟩

theorem home (reflexive : kin.Reflexive) (home : Table MacroDefinition) :
    HomeAkin kin.trees home home :=
  List.forall₂_same.mpr fun entry _ => ⟨rfl, reflexive.definition entry.2⟩

theorem script (reflexive : kin.Reflexive) (source : String) (script : Host.TagScript) :
    kin.ScriptAkin source script script := by
  induction script with
  | done text => exact .done text
  | evaluate expr next inductionHypothesis =>
      exact .evaluate (reflexive.expr source expr) inductionHypothesis
  | render body next inductionHypothesis =>
      exact .render (reflexive.nodes source body) inductionHypothesis
  | renderWith bindings body next inductionHypothesis =>
      exact .renderWith (reflexive.nodes source body) inductionHypothesis
  | lookup name next inductionHypothesis => exact .lookup inductionHypothesis
  | report diagnostic next inductionHypothesis =>
      exact .report (reflexive.told source diagnostic) inductionHypothesis
  | depth next inductionHypothesis => exact .depth inductionHypothesis
  | survey next inductionHypothesis => exact .survey (inductionHypothesis _)

theorem sights (reflexive : kin.Reflexive) {view view' : View} (scopes : view.scopes = view'.scopes)
    (macros : view.macros = view'.macros) (namespaces : view.namespaces = view'.namespaces)
    (halted : view.halted = view'.halted) : Sights kin.trees view view' where
  scopes := scopes
  macros := macros ▸ List.forall₂_same.mpr fun entry _ =>
    ⟨rfl, reflexive.definition entry.2.definition, reflexive.home entry.2.home⟩
  namespaces := namespaces ▸ List.forall₂_same.mpr fun entry _ => ⟨rfl, reflexive.home entry.2⟩
  halted := halted

theorem loaded (reflexive : kin.Reflexive) (answer : Except Host.LoadFault Host.Loaded) :
    LoadAkin kin.trees answer answer := by
  cases answer with
  | error fault => exact .error fault
  | ok loaded => exact .ok ⟨rfl, reflexive.nodes loaded.name loaded.template.body⟩

end Reflexive

end Kinship

end Stencil.Render
