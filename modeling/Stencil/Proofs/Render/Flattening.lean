import Stencil.Proofs.Render.Lineage
import Stencil.Proofs.Render.Uniform

/-!
Contract: templates built on one another render like the single template that stands for them.

Owns:
- renders of a lineage and of the template that stands for it, side by side: they see the same
  variables and report the same, up to the names of templates;
- blocks and calls of `super` on the one side, and the bodies that replace them on the other;
- the way up a lineage, and whole renders.

Does not own: the template that stands for a lineage (`Stencil.Proofs.Render.Lineage`).
-/

set_option autoImplicit false

namespace Stencil.Report

/-- A diagnostic without the name of a template. -/
def Diagnostic.unnamed (diagnostic : Diagnostic) : Diagnostic := { diagnostic with template := none }

end Stencil.Report

namespace Stencil.Render

open Stencil.Host (Environment Loaded Shelf)
open Stencil.Report (Diagnostic)
open Stencil.Syntax (Expr Flattens Node Template)
open Stencil.Text (Span)

variable {α β : Type} {environment : Environment}

theorem State.unnamed_ascribe (place : Place) (diagnostic : Diagnostic) :
    (ascribe place diagnostic).unnamed = diagnostic.unnamed := by
  unfold ascribe
  split
  · split <;> rfl
  · rfl

/-! ### Two renders -/

/-- Whether the render of a lineage stands at a place, up to the loops around it, and the render of
the template that stands for the lineage has come equally far. -/
structure Together (environment : Environment) (place : Place) (state flat : State) : Prop where
  scenery : state.scenery = flat.scenery
  running : state.halted = false
  place : state.place = { place with loopDepth := state.place.loopDepth }
  coherent : state.shelf.Coherent environment
  problems : state.problems.map Diagnostic.unnamed = flat.problems.map Diagnostic.unnamed

/-- Whether two parts of the renders give the same answer and keep them together. -/
def Alongside (environment : Environment) (place : Place) (run flatRun : Run α) : Prop :=
  ∀ ⦃state flat : State⦄, Together environment place state flat →
    ∃ answer after flatAfter, run state = some (answer, after) ∧
      flatRun flat = some (answer, flatAfter) ∧ Together environment place after flatAfter

namespace Together

variable {place : Place} {state flat after flatAfter : State}

theorem halted (together : Together environment place state flat) : flat.halted = false :=
  (congrArg Scenery.halted together.scenery).symm.trans together.running

/-- Steps do not matter, nor what the render of the template that stands for the lineage has
loaded. -/
theorem stepped (together : Together environment place state flat) (steps flatSteps : Nat) :
    Together environment place { state with steps := steps } { flat with steps := flatSteps } :=
  ⟨together.scenery, together.running, together.place, together.coherent, together.problems⟩

theorem report (together : Together environment place state flat) (diagnostic : Diagnostic) :
    Together environment place (state.report diagnostic) (flat.report diagnostic) := by
  refine ⟨together.scenery, together.running, together.place, together.coherent, ?_⟩
  simp only [State.report, Array.map_push, State.unnamed_ascribe, together.problems]

/-- A change of the frames that is the same on both sides keeps the renders together. -/
theorem scopes (together : Together environment place state flat) (change : Scopes → Scopes) :
    Together environment place { state with scopes := change state.scopes }
      { flat with scopes := change flat.scopes } := by
  refine ⟨?_, together.running, together.place, together.coherent, together.problems⟩
  exact congrArg (fun scenery : Scenery => { scenery with scopes := change scenery.scopes })
    together.scenery

/-- So does a change of the number of loops around them. -/
theorem looped (together : Together environment place state flat) (change : Nat → Nat) :
    Together environment place
      { state with place := { state.place with loopDepth := change state.place.loopDepth } }
      { flat with place := { flat.place with loopDepth := change flat.place.loopDepth } } := by
  refine ⟨?_, together.running, ?_, together.coherent, together.problems⟩
  · exact congrArg (fun scenery : Scenery => { scenery with loopDepth := change scenery.loopDepth })
      together.scenery
  · exact congrArg (fun stand : Place => { stand with loopDepth := change state.place.loopDepth })
      together.place

end Together

/-! ### Ordinary statements -/

/-- The two renders, with bodies that keep them together. -/
def Accord.paired (environment : Environment) (place : Place) : Accord Bool where
  hosts _ := environment
  views views := (views true).scenery = (views false).scenery
  expr := Expr.CallFree
  bodies bodies := Alongside environment place ((unbounded environment).render (bodies true))
    ((unbounded environment).render (bodies false))
  ascent _ _ := False
  told _ := True
  complaint _ _ := True
  callable _ := False
  mounted _ := False
  loads := False
  loaded _ := False
  setting setting := (∃ bindings, setting = .frame bindings) ∨ setting = .loop

theorem plain_paired (place : Place) : (Accord.paired environment place).Plain where
  outlook {views} same := by
    have sameOutlook : (views true).outlook = (views false).outlook :=
      congrArg Scenery.outlook same
    exact ⟨(views false).outlook, fun side => by cases side; exacts [rfl, sameOutlook]⟩
  variable_ {views name} same _ := by
    have sameScopes : (views true).scopes = (views false).scopes := congrArg Scenery.scopes same
    refine ⟨(views false).scopes.lookup? name, fun side => ?_⟩
    cases side with
    | true => rw [sameScopes]
    | false => rfl
  name _ := trivial
  lookups := ⟨environment.lookups, fun _ => rfl⟩
  child isFree := isFree.child
  told _ _ := trivial
  complaint _ _ := trivial
  frame bindings := .inl ⟨bindings, rfl⟩
  loop := .inr rfl

theorem keeps_paired (place : Place) : (Accord.paired environment place).Keeps
    fun states => Together environment place (states true) (states false) where
  view together := together.scenery
  report together _ := together.report _
  complain {states lookup diagnostic} together _ := by
    by_cases isStrict : lookup.isStrict environment.strict = true
    · simpa only [Accord.paired, isStrict, if_true] using together.report diagnostic
    · simpa only [Accord.paired, isStrict, Bool.false_eq_true, if_false] using together
  bind name value together := together.scopes (·.bind name value)
  store {states} root path key value together _ := by
    have same : (states true).scopes = (states false).scopes :=
      congrArg Scenery.scopes together.scenery
    refine ⟨((states true).scopes.stored root path key value).1, fun side => ?_, ?_⟩
    · rw [State.store_eq]
      cases side with
      | true => rfl
      | false => rw [same]
    · simp only [State.store_eq]
      exact together.scopes fun scopes => (scopes.stored root path key value).2
  define _ _ isCallable := isCallable.elim
  mount _ _ isMounted := isMounted.elim
  load _ _ loads := loads.elim
  enter {states setting} together isSetting := by
    rcases isSetting with ⟨bindings, rfl⟩ | rfl
    · exact together.scopes (·.push bindings)
    · exact together.looped (· + 1)
  leave {states afters setting} _ isSetting together _ := by
    rcases isSetting with ⟨bindings, rfl⟩ | rfl
    · exact together.scopes Scopes.pop
    · exact together.looped (· - 1)

theorem Alongside.of_abreast {place : Place} {runs : Bool → Run α}
    (abreast : Accord.Abreast none
      (fun states => Together environment place (states true) (states false)) runs) :
    Alongside environment place (runs true) (runs false) := by
  intro state flat together
  rcases @abreast (fun side => bif side then state else flat) together with
    ⟨_, isNone, _⟩ | ⟨answer, afters, areAfters, after⟩
  · cases isNone
  · exact ⟨answer, afters true, afters false, areAfters true, areAfters false, after⟩

theorem Alongside.abreast {place : Place} {runs : Bool → Run α}
    (alongside : Alongside environment place (runs true) (runs false)) :
    Accord.Abreast none (fun states => Together environment place (states true) (states false))
      runs := by
  intro states together
  obtain ⟨answer, after, flatAfter, isAnswer, isFlat, together⟩ := alongside together
  refine .inr ⟨answer, fun side => bif side then after else flatAfter, fun side => ?_, together⟩
  cases side with
  | true => exact isAnswer
  | false => exact isFlat

/-- Whatever asks for values, and for bodies that keep the renders together, keeps them together. -/
theorem Alongside.of_alike {place : Place} {actions : Bool → Action α}
    (alike : (Accord.paired environment place).Alike actions) :
    Alongside environment place ((actions true).perform environment (unbounded environment))
      ((actions false).perform environment (unbounded environment)) := by
  have carries : (Accord.paired environment place).Carries none
      (fun states => Together environment place (states true) (states false))
      fun _ => unbounded environment := by
    constructor
    · exact fun isFree => (plain_paired place).abreast_callFree (keeps_paired place)
        (fun _ => trivial) isFree
    · exact fun alongside => Alongside.abreast alongside
    · exact fun isAscent => isAscent.elim
    · exact fun _ => Below.level_unbounded environment
  have abreast := Accord.abreast_perform (keeps_paired place) carries alike
  exact Alongside.of_abreast abreast

/-! ### Sequences -/

theorem State.halted_tick {maxSteps : Option Nat} {span : Span} {state : State}
    (stops : (state.tick maxSteps span).1 = false) :
    (state.tick maxSteps span).2.halted = true := by
  rw [tick_goesOn] at stops
  by_cases isHalted : state.halted = true
  · rw [tick_of_halted maxSteps span isHalted, isHalted]
  · cases maxSteps with
    | none => simp [goesOn, isHalted] at stops
    | some limit =>
        have isOver : ¬state.steps + 1 ≤ limit := by simpa [goesOn, isHalted] using stops
        rw [tick_of_stops (by simpa using isHalted) isOver]
        rfl

theorem renderAll_of_halted {below : Below} (nodes : List Node) {state : State}
    (isHalted : state.halted = true) : renderAll environment below nodes state = some ("", state) := by
  cases nodes with
  | nil => rfl
  | cons node rest =>
      have stops : (state.tick environment.maxSteps node.span).1 = false := by
        simp [State.tick_goesOn, State.goesOn, isHalted]
      rw [renderAll_cons, stops, State.tick_of_halted _ _ isHalted]
      rfl

/-- Statements after others are rendered after them. -/
theorem renderAll_append (below : Below) (nodes others : List Node) (state : State) :
    renderAll environment below (nodes ++ others) state =
      (renderAll environment below nodes state).bind fun first =>
        (renderAll environment below others first.2).map fun second =>
          (first.1 ++ second.1, second.2) := by
  induction nodes generalizing state with
  | nil => simp [renderAll]
  | cons node rest inductionHypothesis =>
      rw [List.cons_append, renderAll_cons, renderAll_cons]
      by_cases goesOn : (state.tick environment.maxSteps node.span).1 = true
      · simp only [goesOn, if_true, inductionHypothesis, Option.map_bind, Option.bind_assoc,
          Option.bind_map, Function.comp_def, Option.map_map, String.append_assoc]
      · have stops := State.halted_tick (by simpa using goesOn)
        simp [goesOn, renderAll_of_halted others stops]

/-- The same with no limit on the depth. -/
theorem Alongside.append {place : Place} {nodes others flat flatOthers : List Node}
    (first : Alongside environment place ((unbounded environment).render nodes)
      ((unbounded environment).render flat))
    (second : Alongside environment place ((unbounded environment).render others)
      ((unbounded environment).render flatOthers)) :
    Alongside environment place ((unbounded environment).render (nodes ++ others))
      ((unbounded environment).render (flat ++ flatOthers)) := by
  simp only [unbounded_render] at *
  intro state flatState together
  obtain ⟨text, middle, flatMiddle, isText, isFlat, together⟩ := first together
  obtain ⟨more, after, flatAfter, isMore, isFlatMore, together⟩ := second together
  refine ⟨text ++ more, after, flatAfter, ?_, ?_, together⟩
  · rw [renderAll_append, isText, Option.bind_some, isMore, Option.map_some]
  · rw [renderAll_append, isFlat, Option.bind_some, isFlatMore, Option.map_some]

/-- Without a limit on steps, one statement is rendered by carrying it out. -/
theorem render_single (unlimited : environment.maxSteps = none) (node : Node) {state : State}
    (running : state.halted = false) :
    (unbounded environment).render [node] state =
      (Action.carryOut node).perform environment (unbounded environment)
        { state with steps := state.steps + 1 } := by
  have goesOn : state.goesOn environment.maxSteps = true := by
    simp [State.goesOn, running, unlimited]
  rw [unbounded_render, renderAll_cons, State.tick_goesOn, goesOn, State.tick_of_goesOn _ goesOn]
  simp [renderAll]

theorem Alongside.ordinary (unlimited : environment.maxSteps = none) {place : Place} {node : Node}
    (isOrdinary : node.isOrdinary = true) (free : ∀ expr ∈ node.exprs, expr.CallFree)
    (change : List Node → List Node)
    (inner : ∀ body ∈ node.bodies, Alongside environment place ((unbounded environment).render body)
      ((unbounded environment).render (change body))) :
    Alongside environment place ((unbounded environment).render [node])
      ((unbounded environment).render [node.mapBodies change]) := by
  have alike : (Accord.paired environment place).Alike fun side =>
      Action.carryOut (node.mapBodies (bif side then id else change)) :=
    (plain_paired place).carryOut isOrdinary (fun side => bif side then id else change) free inner
  have carried := Alongside.of_alike alike
  simp only [cond_true, cond_false, Node.mapBodies_id] at carried
  intro state flat together
  rw [render_single unlimited node together.running, render_single unlimited _ together.halted]
  exact carried (together.stepped _ _)

/-! ### Settings of the lineage -/

/-- The settings that only the render of a lineage enters. Ordinary statements do not see them. -/
inductive Setting.IsStage : Setting → Prop where
  | block (name : String) (level : Nat) (origin : String) : IsStage (.block name level origin)
  | template (name : String) : IsStage (.template name)
  | chain (overrides : Overrides) : IsStage (.chain overrides)

theorem Alongside.within {place : Place} {setting : Setting} (isStage : setting.IsStage)
    {run flatRun : Run α} (inner : Alongside environment (setting.place place) run flatRun) :
    Alongside environment place (run.inSetting setting) flatRun := by
  intro state flat together
  have entered : Together environment (setting.place place)
      { state with toView := setting.enter state.toView } flat := by
    refine ⟨?_, together.running, ?_, together.coherent, together.problems⟩
    · cases isStage <;> exact together.scenery
    · show setting.place state.place = _
      rw [together.place]
      cases isStage <;> rfl
  obtain ⟨answer, after, flatAfter, isAnswer, isFlat, stays⟩ := inner entered
  have left : Together environment place
      { after with toView := setting.leave state.toView after.toView } flatAfter := by
    refine ⟨?_, ?_, ?_, stays.coherent, stays.problems⟩
    · cases isStage <;> exact stays.scenery
    · cases isStage <;> exact stays.running
    · have isPlace : setting.placeAfter state.place after.place =
          { place with loopDepth := after.place.loopDepth } := by
        rw [together.place, stays.place]
        cases isStage <;> rfl
      cases isStage <;> exact isPlace
  exact ⟨answer, _, flatAfter, by rw [Run.inSetting, isAnswer, Option.map_some], isFlat, left⟩

/-! ### Blocks -/

/-- Whether tables of definitions give the bodies of blocks. -/
def Gives (overrides : Overrides) (bodies : String × Nat → Option (List Node)) : Prop :=
  ∀ name level, ((overrides.lookup? name).bind (·[level]?)).map Level.body = bodies (name, level)

/-- A definition of a block is rendered in its own setting. -/
theorem perform_renderLevel {below : Below} {name : String} {level : Nat} {definition : Level}
    {state : State}
    (isLevel : (state.place.overrides.lookup? name).bind (·[level]?) = some definition) :
    (Action.renderLevel name level).perform environment below state =
      (Run.inSetting (.block name level definition.template) (below.render definition.body)
        state).map fun answer => (some answer.1, answer.2) := by
  simp only [Action.renderLevel, bind, Action.view, Action.andThen, Action.perform, isLevel]
  show (Action.andThen (.within _ _ .done) _).perform environment below state = _
  rw [Action.perform_andThen]
  show (((Action.inSetting _ _).perform environment below) state).bind _ = _
  rw [Action.perform_inSetting, Action.perform_textOf]
  cases Run.inSetting _ (below.render definition.body) state <;> rfl

/-- A block is its first definition. -/
theorem carryOut_block {below : Below} {name : String} {definition : Level} {state : State}
    (isLevel : (state.place.overrides.lookup? name).bind (·[0]?) = some definition)
    (own : List Node) (span : Span) :
    (Action.carryOut (.block name own span)).perform environment below state =
      Run.inSetting (.block name 0 definition.template) (below.render definition.body) state := by
  show ((Action.renderLevel name 0).andThen _).perform environment below state = _
  rw [Action.perform_andThen, perform_renderLevel isLevel]
  cases Run.inSetting _ (below.render definition.body) state <;> rfl

/-- A call of `super` is the definition behind the one that it stands in. -/
theorem carryOut_super {name : String} {level : Nat} {definition : Level} {state : State}
    (isInside : state.place.supers.head? = some (name, level))
    (isLevel : (state.place.overrides.lookup? name).bind (·[level + 1]?) = some definition)
    (callee call span : Span) :
    (Action.carryOut (.output (Syntax.superCall callee call) span)).perform environment
      (unbounded environment) state =
        Run.inSetting (.block name (level + 1) definition.template)
          ((unbounded environment).render definition.body) state := by
  obtain ⟨outer, areSupers⟩ : ∃ outer, state.place.supers = (name, level) :: outer := by
    cases areSupers : state.place.supers with
    | nil => simp [areSupers] at isInside
    | cons first outer =>
        rw [areSupers] at isInside
        cases isInside
        exact ⟨outer, rfl⟩
  have evaluated : (unbounded environment).eval (Syntax.superCall callee call) state =
      (Run.inSetting (.block name (level + 1) definition.template)
        ((unbounded environment).render definition.body) state).map fun answer =>
          (.text answer.1, answer.2) := by
    rw [unbounded_eval]
    show (Action.callSuper call).perform environment (unbounded environment) state = _
    simp only [Action.callSuper, bind, Action.view, Action.andThen, Action.perform, areSupers]
    rw [Action.perform_andThen, perform_renderLevel isLevel]
    cases Run.inSetting _ ((unbounded environment).render definition.body) state <;> rfl
  show ((Action.valueOf _).andThen _).perform environment (unbounded environment) state = _
  rw [Action.perform_andThen, Action.perform_valueOf, evaluated]
  cases Run.inSetting _ ((unbounded environment).render definition.body) state <;> rfl

/-- A statement that is a body in a setting of the lineage renders like what stands for the body. -/
theorem Alongside.replaced (unlimited : environment.maxSteps = none) {place : Place} {node : Node}
    {setting : Setting} {body flat : List Node} (isStage : setting.IsStage)
    (carried : ∀ {state : State}, state.place = { place with loopDepth := state.place.loopDepth } →
      (Action.carryOut node).perform environment (unbounded environment) state =
        Run.inSetting setting ((unbounded environment).render body) state)
    (inner : Alongside environment (setting.place place) ((unbounded environment).render body)
      ((unbounded environment).render flat)) :
    Alongside environment place ((unbounded environment).render [node])
      ((unbounded environment).render flat) := by
  intro state flatState together
  have stepped := together.stepped (state.steps + 1) flatState.steps
  rw [render_single unlimited node together.running, carried stepped.place]
  exact inner.within isStage stepped

/-- Statements whose blocks are replaced render like the others do in their place. -/
theorem alongside_of_flattens (unlimited : environment.maxSteps = none)
    {bodies : String × Nat → Option (List Node)} {inside : Option (String × Nat)}
    {nodes flat : List Node} (flattens : Flattens bodies inside nodes flat) (place : Place)
    (isInside : ∀ rank ∈ inside, place.supers.head? = some rank) (gives : Gives place.overrides bodies) :
    Alongside environment place ((unbounded environment).render nodes)
      ((unbounded environment).render flat) := by
  induction flattens generalizing place with
  | nil =>
      intro state flatState together
      simp only [unbounded_render, renderAll]
      exact ⟨"", state, flatState, rfl, rfl, together⟩
  | ordinary change isOrdinary free _ _ innerHypothesis othersHypothesis =>
      have inner := fun body member => innerHypothesis body member place isInside gives
      exact (Alongside.ordinary unlimited isOrdinary free change inner).append
        (othersHypothesis place isInside gives)
  | @block inside name own body flat rest flatRest span isBody _ _ innerHypothesis othersHypothesis =>
      rw [← gives] at isBody
      obtain ⟨definition, isLevel, rfl⟩ := Option.map_eq_some_iff.mp isBody
      have inner := innerHypothesis ((Setting.block name 0 definition.template).place place)
        (fun rank isRank => isRank) gives
      have block : Alongside environment place ((unbounded environment).render [.block name own span])
          ((unbounded environment).render flat) := by
        apply Alongside.replaced unlimited (.block name 0 definition.template) _ inner
        intro state isPlace
        apply carryOut_block
        rw [isPlace]
        exact isLevel
      exact block.append (othersHypothesis place isInside gives)
  | @super name level body flat rest flatRest callee call span isBody _ _ innerHypothesis
      othersHypothesis =>
      rw [← gives] at isBody
      obtain ⟨definition, isLevel, rfl⟩ := Option.map_eq_some_iff.mp isBody
      have inner := innerHypothesis ((Setting.block name (level + 1) definition.template).place place)
        (fun rank isRank => isRank) gives
      have output : Alongside environment place
          ((unbounded environment).render [.output (Syntax.superCall callee call) span])
          ((unbounded environment).render flat) := by
        apply Alongside.replaced unlimited (.block name (level + 1) definition.template) _ inner
        intro state isPlace
        apply carryOut_super
        · rw [isPlace]
          exact isInside _ rfl
        · rw [isPlace]
          exact isLevel
      exact output.append (othersHypothesis place isInside gives)

end Stencil.Render
