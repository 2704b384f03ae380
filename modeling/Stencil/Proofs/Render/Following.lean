import Stencil.Proofs.Render.Advance

/-!
Contract: renders that give what others give, unless those are inside of too many calls.

Owns:
- reports of too many calls, behind which nothing is said about a render;
- parts of renders that follow others: one after another, in settings, and statement by statement;
- that actions which ask the same of both renders follow one another.

The render that is followed may be inside of more calls than the one that follows it.

Does not own: the relations between the states of both (`Stencil.Proofs.Render.Inlining`).
-/

set_option autoImplicit false

namespace Stencil.Render

open Stencil.Host (Environment)
open Stencil.Report (Diagnostic)
open Stencil.Syntax (Expr Node)

variable {α β : Type} {environment : Environment} {below : Below}

/-! ### Reports of too many calls -/

/-- Whether a report says that there are too many calls to be inside of. -/
def isLimitReport (report : Diagnostic) : Bool :=
  report.code == .callFailed && report.message == (Problem.recursionLimit callLimit).message

theorem isLimitReport_ascribe (place : Place) (diagnostic : Diagnostic) :
    isLimitReport (State.ascribe place diagnostic) = isLimitReport diagnostic := by
  unfold State.ascribe
  split
  · split <;> rfl
  · rfl

/-- Whether a render has not reported that there are too many calls. -/
def State.isCalm (state : State) : Bool := !state.problems.toList.any isLimitReport

theorem State.isCalm_of_ahead {state after : State} (ahead : Ahead environment state after)
    (isCalm : after.isCalm = true) : state.isCalm = true := by
  obtain ⟨more, isMore⟩ := ahead.problems
  unfold State.isCalm at isCalm ⊢
  rw [← isMore, List.any_append, Bool.not_or, Bool.and_eq_true] at isCalm
  exact isCalm.1

/-- Behind a report of too many calls a render is not calm. -/
theorem State.not_isCalm_report (state : State) (span : Text.Span) :
    (state.report ((Problem.recursionLimit callLimit).at_ span)).isCalm = false := by
  have isLimit : isLimitReport ((Problem.recursionLimit callLimit).at_ span) = true := by
    simp [isLimitReport, Problem.at_, Diagnostic.new, Problem.code]
  simp [isCalm, report, isLimitReport_ascribe, isLimit]

/-- The answers of a part of a render that come without a report of too many calls. -/
def Run.calm (run : Run α) : Run α := fun state => (run state).filter fun answer => answer.2.isCalm

theorem Run.calm_eq_some {run : Run α} {state : State} {answer : α × State} :
    run.calm state = some answer ↔ run state = some answer ∧ answer.2.isCalm = true :=
  Option.filter_eq_some_iff

def Below.calm (below : Below) : Below where
  eval expr := (below.eval expr).calm
  render nodes := (below.render nodes).calm
  ascend overrides parent := (below.ascend overrides parent).calm

theorem Run.Upholds.calm {rel : Standing → Standing → Prop} {run : Run α} (upholds : run.Upholds rel) :
    run.calm.Upholds rel :=
  fun _ _ _ isAnswer => upholds (Run.calm_eq_some.mp isAnswer).1

theorem Below.Upholds.calm {rel : Standing → Standing → Prop} (upholds : below.Upholds rel) :
    below.calm.Upholds rel :=
  ⟨fun expr => (upholds.eval expr).calm, fun nodes => (upholds.render nodes).calm,
    fun overrides parent => (upholds.ascend overrides parent).calm⟩

/-- Since reports are never taken back, all parts of an action that is carried out without a report of
too many calls are carried out without one. -/
theorem Action.perform_calm (advances : below.Advances environment) {action : Action α}
    {state after : State} {answer : α}
    (performed : action.perform environment below state = some (answer, after))
    (isCalm : after.isCalm = true) :
    action.perform environment below.calm state = some (answer, after) := by
  induction action generalizing state after with
  | done answer => exact performed
  | eval expr next inductionHypothesis =>
      rw [perform_eval] at performed ⊢
      obtain ⟨middle, isMiddle, isAfter⟩ := Option.bind_eq_some_iff.mp performed
      have isCalmMiddle := State.isCalm_of_ahead (advances_perform advances _ isAfter) isCalm
      exact Option.bind_eq_some_iff.mpr
        ⟨middle, Run.calm_eq_some.mpr ⟨isMiddle, isCalmMiddle⟩, inductionHypothesis _ isAfter isCalm⟩
  | render nodes next inductionHypothesis =>
      rw [perform_render] at performed ⊢
      obtain ⟨middle, isMiddle, isAfter⟩ := Option.bind_eq_some_iff.mp performed
      have isCalmMiddle := State.isCalm_of_ahead (advances_perform advances _ isAfter) isCalm
      exact Option.bind_eq_some_iff.mpr
        ⟨middle, Run.calm_eq_some.mpr ⟨isMiddle, isCalmMiddle⟩, inductionHypothesis _ isAfter isCalm⟩
  | ascend overrides parent next inductionHypothesis =>
      rw [perform_ascend] at performed ⊢
      obtain ⟨middle, isMiddle, isAfter⟩ := Option.bind_eq_some_iff.mp performed
      have isCalmMiddle := State.isCalm_of_ahead (advances_perform advances _ isAfter) isCalm
      exact Option.bind_eq_some_iff.mpr
        ⟨middle, Run.calm_eq_some.mpr ⟨isMiddle, isCalmMiddle⟩, inductionHypothesis _ isAfter isCalm⟩
  | within setting inner next innerHypothesis nextHypothesis =>
      rw [perform_within] at performed ⊢
      obtain ⟨inside, isInside, isAfter⟩ := Option.bind_eq_some_iff.mp performed
      have isCalmInside := State.isCalm_of_ahead (advances_perform advances _ isAfter) isCalm
      exact Option.bind_eq_some_iff.mpr
        ⟨inside, innerHypothesis isInside isCalmInside, nextHypothesis _ isAfter isCalm⟩
  | look next inductionHypothesis | consult next inductionHypothesis
  | survey next inductionHypothesis | store _ _ _ _ next inductionHypothesis
  | load _ next inductionHypothesis => exact inductionHypothesis _ performed isCalm
  | report _ next inductionHypothesis | complain _ _ next inductionHypothesis
  | bindName _ _ next inductionHypothesis | define _ _ next inductionHypothesis
  | mount _ _ next inductionHypothesis => exact inductionHypothesis performed isCalm

/-! ### One part of a render after another -/

/-- Whether a part of a render, started from a related state, gives the answer that another one gives
without a report of too many calls, and leads to a related state. -/
def Follows (rel : State → State → Prop) (run run' : Run α) : Prop :=
  ∀ ⦃state state' : State⦄, rel state state' → ∀ ⦃answer : α⦄ ⦃after : State⦄,
    run state = some (answer, after) → after.isCalm = true →
      ∃ after', run' state' = some (answer, after') ∧ rel after after'

variable {rel : State → State → Prop}

namespace Follows

/-- Two parts of a render follow two others if each one follows the other at its place. -/
theorem bind {run run' : Run α} {rest rest' : α → Run β} (first : Follows rel run run')
    (advances : ∀ answer, (rest answer).Advances environment)
    (second : ∀ answer, Follows rel (rest answer) (rest' answer)) :
    Follows rel (fun state => (run state).bind fun answer => rest answer.1 answer.2)
      fun state => (run' state).bind fun answer => rest' answer.1 answer.2 := by
  intro state state' related answer after performed isCalm
  obtain ⟨⟨found, middle⟩, isMiddle, isAfter⟩ := Option.bind_eq_some_iff.mp performed
  obtain ⟨middle', isMiddle', relatedMiddle⟩ :=
    first related isMiddle (State.isCalm_of_ahead (advances found isAfter) isCalm)
  obtain ⟨after', isAfter', relatedAfter⟩ := second found relatedMiddle isAfter isCalm
  exact ⟨after', Option.bind_eq_some_iff.mpr ⟨_, isMiddle', isAfter'⟩, relatedAfter⟩

theorem andThen {below' : Below} {first first' : Action α} {rest rest' : α → Action β}
    (advances : below.Advances environment)
    (follows : Follows rel (first.perform environment below) (first'.perform environment below'))
    (restFollows : ∀ answer, Follows rel ((rest answer).perform environment below)
      ((rest' answer).perform environment below')) :
    Follows rel ((first >>= rest).perform environment below)
      ((first' >>= rest').perform environment below') := by
  intro state state' related answer after performed isCalm
  rw [show first >>= rest = first.andThen rest from rfl, Action.perform_andThen] at performed
  rw [show first' >>= rest' = first'.andThen rest' from rfl, Action.perform_andThen]
  exact follows.bind (fun found => Action.advances_perform advances (rest found)) restFollows related
    performed isCalm

theorem pure {below' : Below} (answer : α) :
    Follows rel ((Pure.pure answer : Action α).perform environment below)
      ((Pure.pure answer : Action α).perform environment below') := by
  intro state state' related found after performed _
  cases performed
  exact ⟨state', rfl, related⟩

theorem map {run run' : Run α} (change : α → β) (follows : Follows rel run run') :
    Follows rel (fun state => (run state).map fun answer => (change answer.1, answer.2))
      fun state => (run' state).map fun answer => (change answer.1, answer.2) := by
  intro state state' related answer after performed isCalm
  obtain ⟨⟨found, _⟩, isFound, isAnswer⟩ := Option.map_eq_some_iff.mp performed
  cases isAnswer
  obtain ⟨after', isAfter', relatedAfter⟩ := follows related isFound isCalm
  exact ⟨after', Option.map_eq_some_iff.mpr ⟨_, isAfter', rfl⟩, relatedAfter⟩

/-- What is done around parts that follow one another, if it keeps the states related. Both of the
parts leave the stacks at the heights at which they find them. -/
theorem around {run run' : Run α} (follows : Follows rel run run')
    (level : run.Upholds Standing.Level) (level' : run'.Upholds Standing.Level)
    (enter enter' : State → State) (leave leave' : State → State → State)
    (entered : ∀ {state state'}, rel state state' → rel (enter state) (enter' state'))
    (silent : ∀ {state after}, (leave state after).problems = after.problems)
    (left : ∀ {state state' after after'}, rel state state' → rel after after' →
      (enter state).standing.Level after.standing → (enter' state').standing.Level after'.standing →
        rel (leave state after) (leave' state' after')) :
    Follows rel
      (fun state => (run (enter state)).map fun answer => (answer.1, leave state answer.2))
      fun state => (run' (enter' state)).map fun answer => (answer.1, leave' state answer.2) := by
  intro state state' related answer after performed isCalm
  obtain ⟨⟨found, inside⟩, isInside, isAnswer⟩ := Option.map_eq_some_iff.mp performed
  cases isAnswer
  have isCalmInside : inside.isCalm = true := by
    rw [State.isCalm, ← @silent state inside]
    exact isCalm
  obtain ⟨inside', isInside', relatedInside⟩ := follows (entered related) isInside isCalmInside
  exact ⟨_, Option.map_eq_some_iff.mpr ⟨_, isInside', rfl⟩,
    left related relatedInside (level isInside) (level' isInside')⟩

end Follows

/-! ### Actions and statements -/

/-- Whether the parts of actions are carried out so that one render follows another. -/
structure Accord.Leads (accord : Accord Bool) (rel : State → State → Prop) (below below' : Below) :
    Prop where
  eval : ∀ {expr}, accord.expr expr → Follows rel (below.eval expr) (below'.eval expr)
  render : ∀ {bodies}, accord.bodies bodies →
    Follows rel (below.render (bodies true)) (below'.render (bodies false))
  ascend : ∀ {overrides parent}, accord.ascent overrides parent →
    Follows rel (below.ascend overrides parent) (below'.ascend overrides parent)
  advances : below.Advances (accord.hosts true)
  level : below.Upholds Standing.Level
  level' : below'.Upholds Standing.Level

namespace Follows

variable {accord : Accord Bool} {below' : Below}

theorem abreast {runs : Bool → Run α} {run : Run α} (isCalm : runs true = run.calm)
    (follows : Follows rel run (runs false)) :
    Accord.Abreast (some true) (fun states => rel (states true) (states false)) runs := by
  intro states related
  cases performed : runs true (states true) with
  | none => exact .inl ⟨true, rfl, performed⟩
  | some answer =>
      obtain ⟨found, after⟩ := answer
      obtain ⟨isFound, isCalmAfter⟩ := Run.calm_eq_some.mp (isCalm ▸ performed)
      obtain ⟨after', isFound', relatedAfter⟩ := follows related isFound isCalmAfter
      refine .inr ⟨found, fun side => bif side then after else after', fun side => ?_, relatedAfter⟩
      cases side with
      | true => exact performed
      | false => exact isFound'

/-- Actions that ask the same of both renders follow one another. -/
theorem of_alike (keeps : accord.Keeps fun states => rel (states true) (states false))
    (leads : accord.Leads rel below below') {actions : Bool → Action α}
    (alike : accord.Alike actions) :
    Follows rel ((actions true).perform (accord.hosts true) below)
      ((actions false).perform (accord.hosts false) below') := by
  let belows : Bool → Below := fun side => bif side then below.calm else below'
  have carries : accord.Carries (some true) (fun states => rel (states true) (states false)) belows := by
    refine ⟨fun allowed => abreast rfl (leads.eval allowed), fun allowed => ?_,
      fun allowed => abreast rfl (leads.ascend allowed), fun side => ?_⟩
    · exact abreast rfl (leads.render allowed)
    · cases side with
      | true => exact leads.level.calm
      | false => exact leads.level'
  intro state state' related answer after performed isCalm
  let states : Bool → State := fun side => bif side then state else state'
  have calmly : (actions true).perform (accord.hosts true) (belows true) (states true) =
      some (answer, after) := Action.perform_calm leads.advances performed isCalm
  have areRelated : rel (states true) (states false) := related
  obtain ⟨afters, areAfters, rfl, relatedAfter⟩ :=
    (Accord.abreast_perform keeps carries alike).answer areRelated calmly
  exact ⟨afters false, areAfters false, relatedAfter⟩

/-- A statement and those behind it follow others, which take their steps together with them. -/
theorem statement (ticks : accord.Ticks (fun states => rel (states true) (states false))
      fun states => rel (states true) (states false))
    (advances : below.Advances (accord.hosts true)) {node node' : Node} {rest rest' : List Node}
    (sameSpan : node'.span = node.span)
    (carried : Follows rel ((Action.carryOut node).perform (accord.hosts true) below)
      ((Action.carryOut node').perform (accord.hosts false) below'))
    (others : Follows rel (renderAll (accord.hosts true) below rest)
      (renderAll (accord.hosts false) below' rest')) :
    Follows rel (renderAll (accord.hosts true) below (node :: rest))
      (renderAll (accord.hosts false) below' (node' :: rest')) := by
  intro state state' related
  obtain ⟨goesOn, areTicked, relatedTicked⟩ :=
    @ticks (fun side => bif side then state else state') node.span related
  have ticked := areTicked true
  have ticked' := areTicked false
  simp only [cond_true, cond_false] at ticked ticked' relatedTicked
  simp only [renderAll_cons, sameSpan, ticked, ticked']
  cases goesOn with
  | false =>
      simp only [Bool.false_eq_true, if_false] at relatedTicked ⊢
      intro answer after performed _
      cases performed
      exact ⟨_, rfl, relatedTicked⟩
  | true =>
      simp only [if_true] at relatedTicked ⊢
      have advancesRest (text : String) : Run.Advances (accord.hosts true) fun middle =>
          (renderAll (accord.hosts true) below rest middle).map fun others =>
            (text ++ others.1, others.2) := by
        intro before last more isMore
        obtain ⟨found, isFound, isAnswer⟩ := Option.map_eq_some_iff.mp isMore
        cases isAnswer
        exact advances_renderAll advances rest isFound
      intro answer after performed isCalm
      exact carried.bind advancesRest (fun text => others.map (text ++ ·)) relatedTicked performed isCalm

end Follows

end Stencil.Render
