import Stencil.Proofs.Render.Balance
import Stencil.Proofs.Render.Cache
import Stencil.Proofs.Render.Depth
import Stencil.Proofs.Render.Uniform

/-!
Contract: which renders end.

Owns:
- a limit on steps makes every render end if no default of a parameter has a call in it;
- a default with a call of its own macro, which no limit on steps ends.

The steps that are left bound how deeply bodies are nested, and the templates that are not being
rendered bound how many of them are built on one another. Between two steps there are only the
expressions of one statement, and the defaults of the macros that they call.

Does not own: evaluation without a bound (`Stencil.Proofs.Render.Depth`).
-/

set_option autoImplicit false

namespace Stencil.Host

/-- Whether the script of a tag has no bodies rendered but those of some kind. -/
inductive TagScript.RendersOnly (isBody : List Syntax.Node → Prop) : TagScript → Prop where
  | done (text : String) : RendersOnly isBody (.done text)
  | evaluate {expr : Syntax.Expr} {next : Value → TagScript}
      (rest : ∀ value, RendersOnly isBody (next value)) : RendersOnly isBody (.evaluate expr next)
  | render {body : List Syntax.Node} {next : String → TagScript} (allowed : isBody body)
      (rest : ∀ text, RendersOnly isBody (next text)) : RendersOnly isBody (.render body next)
  | renderWith {bindings : Table Value} {body : List Syntax.Node} {next : String → TagScript}
      (allowed : isBody body) (rest : ∀ text, RendersOnly isBody (next text)) :
      RendersOnly isBody (.renderWith bindings body next)
  | lookup {name : String} {next : Option Value → TagScript}
      (rest : ∀ value, RendersOnly isBody (next value)) : RendersOnly isBody (.lookup name next)
  | report {diagnostic : Report.Diagnostic} {next : TagScript} (rest : RendersOnly isBody next) :
      RendersOnly isBody (.report diagnostic next)
  | depth {next : Nat → TagScript} (rest : ∀ depth, RendersOnly isBody (next depth)) :
      RendersOnly isBody (.depth next)
  | survey {next : Facade → TagScript} (rest : ∀ facade, RendersOnly isBody (next facade)) :
      RendersOnly isBody (.survey next)

end Stencil.Host

namespace Stencil.Render

open Stencil.Host (Environment Shelf)
open Stencil.Syntax (Expr Node Template)
open Stencil.Text (Span)

variable {α β : Type} {environment : Environment}

/-- Templates whose defaults of parameters have no calls in them. -/
def Material.plain : Material where
  node := Node.PlainDefaults
  default := Expr.CallFree

theorem closed_plain : Material.plain.Closed where
  body isPlain := by
    cases isPlain with
    | mk _ bodies => exact bodies
  params isPlain := by
    cases isPlain with
    | mk params _ => exact params
  block _ := trivial
  super _ _ := trivial
  templates _ _ := trivial

/-- Whether the texts of all templates by name form templates of a material. -/
def Material.Loads (material : Material) (environment : Environment) : Prop :=
  ∀ ⦃name source : String⦄, environment.MayGive name source →
    material.Body (environment.parse name source).template.body

/-- What is loaded has a text, and is the template of that text. -/
theorem Material.body_of_load {material : Material} (sound : material.Loads environment)
    {state : State} (coherent : state.shelf.Coherent environment) {name : String}
    {loaded : Host.Loaded} (isLoaded : (state.load environment name).1 = .ok loaded) :
    loaded.name = name ∧ (∃ source, environment.MayGive name source) ∧
      material.Body loaded.template.body := by
  rw [State.load_answer] at isLoaded
  obtain ⟨source, mayGive, rfl⟩ := coherent.mayGive isLoaded
  exact ⟨rfl, ⟨source, mayGive⟩, sound mayGive⟩

/-- What holds wherever a render with a limit on steps stands: everything that it can come across is
of a material, and it has no more than some steps left. -/
structure Steady (environment : Environment) (limit left : Nat) (state : State) : Prop where
  holds : Material.plain.Holds state.toView
  coherent : state.shelf.Coherent environment
  budget : state.halted = false → limit ≤ state.steps + left

/-- A render by itself, of templates without calls in defaults. -/
def Accord.single (environment : Environment) (expr : Expr → Prop) (body : List Node → Prop)
    (ascent : Overrides → Prop) : Accord Unit where
  hosts _ := environment
  views views := Material.plain.Holds (views ())
  expr := expr
  bodies bodies := body (bodies ())
  ascent overrides _ := ascent overrides
  told _ := True
  complaint _ _ := True
  callable := Material.plain.OfMacro
  mounted := Material.plain.Home
  loads := True
  loaded loaded := Material.plain.Body loaded.template.body
  setting := Material.plain.OfSetting

section Single

variable {expr : Expr → Prop} {body : List Node → Prop} {ascent : Overrides → Prop}

theorem plain_single (child : ∀ {whole part}, expr whole → part ∈ whole.children → expr part) :
    (Accord.single environment expr body ascent).Plain where
  outlook {views} _ := ⟨(views ()).outlook, fun _ => rfl⟩
  variable_ {views name} _ _ := ⟨(views ()).scopes.lookup? name, fun _ => rfl⟩
  name _ := trivial
  lookups := ⟨environment.lookups, fun _ => rfl⟩
  child := child
  told _ _ := trivial
  complaint _ _ := trivial
  frame _ := trivial
  loop := trivial

theorem uniform_single (child : ∀ {whole part}, expr whole → part ∈ whole.children → expr part)
    (default : ∀ {part}, part.CallFree → expr part)
    (isBody : ∀ {nodes}, Material.plain.Body nodes → body nodes) :
    (Accord.single environment expr body ascent).Uniform .plain where
  toPlain := plain_single child
  closed := closed_plain
  same {views} holds := ⟨views (), fun _ => rfl, holds⟩
  default := default
  called _ _ _ := trivial
  body := isBody
  callable := id
  mounted := id
  loads _ := trivial
  loaded := id
  setting _ := id

end Single

namespace Steady

variable {limit left : Nat} {state before after : State}

theorem weaken {more : Nat} (steady : Steady environment limit left state) (isLe : left ≤ more) :
    Steady environment limit more state :=
  ⟨steady.holds, steady.coherent, fun isRunning =>
    Nat.le_trans (steady.budget isRunning) (Nat.add_le_add_left isLe _)⟩

theorem report (steady : Steady environment limit left state) (diagnostic : Report.Diagnostic) :
    Steady environment limit left (state.report diagnostic) :=
  ⟨steady.holds, steady.coherent, steady.budget⟩

theorem load (steady : Steady environment limit left state) (name : String) :
    Steady environment limit left (state.load environment name).2 := by
  have coherent := steady.coherent.fetch name
  cases isAnswer : (Shelf.fetch environment name state.shelf).1 with
  | error fault =>
      rw [State.load_of_error isAnswer]
      exact ⟨steady.holds, coherent, steady.budget⟩
  | ok loaded =>
      rw [State.load_of_ok isAnswer]
      unfold State.reportLoaded
      split
      · exact ⟨steady.holds, coherent, steady.budget⟩
      · exact ⟨steady.holds, coherent, steady.budget⟩

theorem enter (steady : Steady environment limit left state) (setting : Setting)
    (isSetting : Material.plain.OfSetting setting) :
    Steady environment limit left { state with toView := setting.enter state.toView } :=
  ⟨steady.holds.enter isSetting, steady.coherent, steady.budget⟩

theorem leave (steady : Steady environment limit left before)
    (steadyAfter : Steady environment limit left after) (setting : Setting) :
    Steady environment limit left
      { after with toView := setting.leave before.toView after.toView } := by
  refine ⟨steady.holds.leave steadyAfter.holds setting, steadyAfter.coherent, fun isRunning => ?_⟩
  refine steadyAfter.budget (Eq.trans ?_ isRunning)
  cases setting <;> rfl

/-- Requests keep a render by itself as it is. -/
theorem keeps (sound : Material.plain.Loads environment) {expr : Expr → Prop}
    {body : List Node → Prop} {ascent : Overrides → Prop} :
    (Accord.single environment expr body ascent).Keeps fun states =>
      Steady environment limit left (states ()) where
  view steady := steady.holds
  report steady _ := steady.report _
  complain {states lookup diagnostic} steady _ := by
    dsimp only
    split
    · exact steady.report diagnostic
    · exact steady
  bind name value steady :=
    ⟨⟨steady.holds.macros, steady.holds.namespaces, steady.holds.homes, steady.holds.callers,
      steady.holds.overrides⟩, steady.coherent, steady.budget⟩
  store {states} root path key value steady _ := by
    simp only [State.store_eq]
    exact ⟨((states ()).scopes.stored root path key value).1, fun _ => rfl,
      ⟨steady.holds.macros, steady.holds.namespaces, steady.holds.homes,
      steady.holds.callers, steady.holds.overrides⟩, steady.coherent, steady.budget⟩
  define name steady isMacro :=
    ⟨steady.holds.define name isMacro, steady.coherent, steady.budget⟩
  mount name steady isHome := ⟨steady.holds.mount name isHome, steady.coherent, steady.budget⟩
  load {states} name steady _ :=
    ⟨_, fun _ isLoaded => (Material.body_of_load sound steady.coherent isLoaded).2.2, fun _ => rfl, steady.load name⟩
  enter steady isSetting := steady.enter _ isSetting
  leave steady _ steadyAfter _ := steady.leave steadyAfter _

end Steady

/-! ### Ends -/

/-- Whether a run has an answer wherever a render stands with some steps left. -/
def Run.Ends (environment : Environment) (limit left : Nat) (run : Run α) : Prop :=
  ∀ ⦃state : State⦄, Steady environment limit left state →
    ∃ answer after, run state = some (answer, after) ∧ Steady environment limit left after

theorem abreast_iff_ends {limit left : Nat} {run : Run α} :
    Accord.Abreast none (fun states => Steady environment limit left (states ())) (fun _ : Unit => run)
      ↔ run.Ends environment limit left := by
  constructor
  · intro abreast state steady
    rcases @abreast (fun _ => state) steady with ⟨_, isNone, _⟩ | ⟨answer, afters, areAfters, after⟩
    · cases isNone
    · exact ⟨answer, afters (), areAfters (), after⟩
  · intro ends states steady
    obtain ⟨answer, after, isAnswer, steadyAfter⟩ := ends steady
    exact .inr ⟨answer, fun _ => after, fun _ => isAnswer, steadyAfter⟩

section Ends

variable {limit left : Nat}

/-- Expressions without calls have a value. -/
theorem ends_callFree (sound : Material.plain.Loads environment) {expr : Expr}
    (isFree : expr.CallFree) : ((unbounded environment).eval expr).Ends environment limit left := by
  have plain : (Accord.single environment Expr.CallFree (fun _ => False) fun _ => False).Plain :=
    plain_single fun allowed member => allowed.child member
  exact abreast_iff_ends.mp (plain.abreast_callFree (Steady.keeps sound) (fun _ => trivial) isFree)

/-- Expressions have a value if bodies have a text: the defaults that calls ask for have no calls in
them. -/
theorem ends_eval (sound : Material.plain.Loads environment)
    (rendered : ∀ {nodes}, Material.plain.Body nodes →
      ((unbounded environment).render nodes).Ends environment limit left) (expr : Expr) :
    ((unbounded environment).eval expr).Ends environment limit left := by
  suffices smaller : ∀ size (expr : Expr), sizeOf expr < size →
      ((unbounded environment).eval expr).Ends environment limit left from
    smaller _ expr (Nat.lt_succ_self _)
  intro size
  induction size with
  | zero => exact fun _ isSmall => absurd isSmall (Nat.not_lt_zero _)
  | succ size inductionHypothesis =>
      intro expr isSmall
      let accord := Accord.single environment
        (fun part => sizeOf part < size ∨ part.CallFree) Material.plain.Body (fun _ => False)
      have carries : accord.Carries none (fun states => Steady environment limit left (states ()))
          fun _ => unbounded environment := by
        refine ⟨fun {part} allowed => abreast_iff_ends.mpr ?_, fun {bodies} isBody => ?_,
          fun allowed => allowed.elim, fun _ => Below.level_unbounded environment⟩
        · exact allowed.elim (inductionHypothesis part) fun isFree => ends_callFree sound isFree
        · exact abreast_iff_ends.mpr (rendered isBody)
      have uniform : accord.Uniform .plain := uniform_single
        (fun allowed member => allowed.imp (Nat.lt_trans (Expr.sizeOf_child member)) (·.child member))
        .inr id
      rw [unbounded_eval]
      refine abreast_iff_ends.mp (Accord.abreast_perform (Steady.keeps sound) carries
        (uniform.evaluate (fun part member => .inl ?_) (fun _ _ _ => trivial)
          fun _ _ _ _ _ _ => trivial))
      have := Expr.sizeOf_child member
      omega

/-! ### Templates built on one another -/

/-- How many of some templates are not being rendered. -/
def unloaded (names loads : List String) : Nat := names.countP (· ∉ loads)

theorem unloaded_cons_lt {names loads : List String} {name : String} (isName : name ∈ names)
    (isNew : name ∉ loads) : unloaded names (name :: loads) < unloaded names loads := by
  unfold unloaded
  induction names with
  | nil => cases isName
  | cons first rest inductionHypothesis =>
      have isLe : rest.countP (· ∉ name :: loads) ≤ rest.countP (· ∉ loads) :=
        List.countP_mono_left fun other _ isOther => by simp_all
      rw [List.countP_cons, List.countP_cons]
      by_cases isFirst : first = name
      · subst isFirst
        simp only [List.mem_cons_self, not_true_eq_false, decide_false, isNew, not_false_eq_true,
          decide_true, if_true, Bool.false_eq_true, if_false]
        omega
      · have inRest := (List.mem_cons.mp isName).resolve_left (Ne.symm isFirst)
        have isLess := inductionHypothesis inRest
        by_cases isLoaded : first ∈ loads <;> simp [isFirst, isLoaded] at * <;> omega

/-- A render by itself that is not built on other templates. -/
abbrev Accord.grounded (environment : Environment) : Accord Unit :=
  .single environment (fun _ => True) Material.plain.Body fun _ => False

theorem uniform_grounded : (Accord.grounded environment).Uniform .plain :=
  uniform_single (fun _ _ => trivial) (fun _ => trivial) id

/-- What an action asks for ends if bodies do, and behind it the render stands where it stood. -/
theorem ends_of_asks (sound : Material.plain.Loads environment)
    (rendered : ∀ {nodes}, Material.plain.Body nodes →
      ((unbounded environment).render nodes).Ends environment limit left)
    {action : Action α} (asks : (Accord.grounded environment).Asks action) {state : State}
    (steady : Steady environment limit left state) :
    ∃ answer after, action.perform environment (unbounded environment) state = some (answer, after) ∧
      Steady environment limit left after ∧ after.place = state.place := by
  have carries : (Accord.grounded environment).Carries none
      (fun states => Steady environment limit left (states ())) fun _ => unbounded environment :=
    ⟨fun _ => abreast_iff_ends.mpr (ends_eval sound rendered _),
      fun isBody => abreast_iff_ends.mpr (rendered isBody), fun allowed => allowed.elim,
      fun _ => Below.level_unbounded environment⟩
  have ends : (action.perform environment (unbounded environment)).Ends environment limit left :=
    abreast_iff_ends.mp (Accord.abreast_perform (Steady.keeps sound) carries asks)
  obtain ⟨answer, after, isAnswer, steadyAfter⟩ := ends steady
  obtain ⟨depth, performed⟩ := (Action.perform_unbounded _ _ _).mp isAnswer
  exact ⟨answer, after, isAnswer, steadyAfter, (balanced_perform depth performed).place⟩

/-- A template that others are built on ends if the one that it is built on does. -/
theorem ends_onto (sound : Material.plain.Loads environment)
    (rendered : ∀ {nodes}, Material.plain.Body nodes →
      ((unbounded environment).render nodes).Ends environment limit left)
    {overrides : Overrides} {loaded : Host.Loaded} {state : State}
    (areLayers : Material.plain.Layers overrides)
    (isBody : Material.plain.Body loaded.template.body)
    (steady : Steady environment limit left state)
    (higher : ∀ {overrides : Overrides} (parent : Expr) {inside : State},
      Material.plain.Layers overrides → Steady environment limit left inside →
        inside.place.loads = loaded.name :: state.place.loads →
          ∃ text after, (unbounded environment).ascend overrides parent inside = some (text, after) ∧
            Steady environment limit left after) :
    ∃ text after, (Action.onto overrides loaded).perform environment (unbounded environment) state =
      some (text, after) ∧ Steady environment limit left after := by
  have isHome : Material.plain.Home loaded.macros := Material.home_macroTable closed_plain isBody
  have added : Material.plain.Layers (overrides.add loaded.name loaded.blocks) :=
    Material.layers_add areLayers loaded.name (Material.body_blockTable closed_plain isBody)
  obtain ⟨_, defined, isDefined, steadyDefined, sameDefined⟩ :=
    ends_of_asks sound rendered (uniform_grounded.defineMissing isHome.sisters isHome) steady
  change ∃ text after, ((Action.defineMissing loaded.macros loaded.macros).andThen _).perform
    environment (unbounded environment) state = some (text, after) ∧ _
  rw [Action.perform_andThen, isDefined, Option.bind_some]
  split
  · obtain ⟨text, after, isText, steadyAfter, _⟩ := ends_of_asks sound rendered
      (.inSetting (show (Accord.grounded environment).setting (.chain _) from added) <|
        .inSetting (show (Accord.grounded environment).setting (.template _) from trivial) <|
          uniform_grounded.textOf isBody) steadyDefined
    exact ⟨text, after, isText, steadyAfter⟩
  · rename_i next span _
    have steadyInside := steadyDefined.enter (.template loaded.name) trivial
    obtain ⟨_, prepared, isPrepared, steadyPrepared, samePrepared⟩ :=
      ends_of_asks sound rendered (uniform_grounded.prepare isBody) steadyInside
    have areLoads : prepared.place.loads = loaded.name :: state.place.loads := by
      rw [samePrepared, ← sameDefined]
      rfl
    obtain ⟨text, after, isAscended, steadyAfter⟩ :=
      higher next added steadyPrepared areLoads
    refine ⟨text, _, ?_, steadyDefined.leave steadyAfter (.template loaded.name)⟩
    change ((Action.prepare loaded.template.body).andThen _ |> Action.inSetting
      (.template loaded.name)).perform environment (unbounded environment) defined = _
    rw [Action.inSetting, Action.perform_within, Action.perform_andThen, isPrepared,
      Option.bind_some, Action.perform_ascend, isAscended]
    rfl

/-- A chain of templates built on one another ends: none of them is rendered inside itself. -/
theorem ends_ascend (sound : Material.plain.Loads environment) {names : List String}
    (finite : ∀ {name source}, environment.MayGive name source → name ∈ names)
    (rendered : ∀ {nodes}, Material.plain.Body nodes →
      ((unbounded environment).render nodes).Ends environment limit left)
    {overrides : Overrides} (areLayers : Material.plain.Layers overrides) (parent : Expr) :
    ((unbounded environment).ascend overrides parent).Ends environment limit left := by
  suffices bounded : ∀ (count : Nat) (overrides : Overrides) (parent : Expr) (state : State),
      Material.plain.Layers overrides → Steady environment limit left state →
        unloaded names state.place.loads < count →
          ∃ text after, (unbounded environment).ascend overrides parent state = some (text, after) ∧
            Steady environment limit left after from
    fun state steady => bounded _ overrides parent state areLayers steady (Nat.lt_succ_self _)
  intro count
  induction count with
  | zero => exact fun _ _ _ _ _ isBounded => absurd isBounded (Nat.not_lt_zero _)
  | succ count inductionHypothesis =>
      intro overrides parent state areLayers steady isBounded
      have asks : (Accord.grounded environment).Asks (Action.templateName? parent) :=
        uniform_grounded.templateName? trivial
      obtain ⟨name?, named, isNamed, steadyNamed, samePlace⟩ :=
        ends_of_asks sound rendered asks steady
      rw [unbounded_ascend]
      cases name? with
      | none =>
          change ∃ text after, ((Action.templateName? parent).andThen _).perform environment
            (unbounded environment) state = some (text, after) ∧ _
          rw [Action.perform_andThen, isNamed]
          exact ⟨"", named, rfl, steadyNamed⟩
      | some name =>
          rw [Action.perform_ascendTo isNamed]
          split
          · obtain ⟨text, after, isText, steadyAfter, _⟩ := ends_of_asks sound rendered
              ((uniform_grounded.reportCycle name parent.span).bind fun _ => .pure "") steadyNamed
            exact ⟨text, after, isText, steadyAfter⟩
          · rename_i isNew
            have steadyLoaded := steadyNamed.load name
            split
            · exact ⟨"", _, rfl, steadyLoaded.report _⟩
            · rename_i loaded isLoaded
              obtain ⟨isName, ⟨source, isText⟩, isBody⟩ :=
                Material.body_of_load sound steadyNamed.coherent isLoaded
              have stays : (named.load environment name).2.place = state.place :=
                (congrArg Standing.place (State.standing_load environment named name)).trans samePlace
              have isLess := unloaded_cons_lt (finite isText) (samePlace ▸ isNew)
              refine ends_onto sound rendered areLayers isBody steadyLoaded
                fun parent _ areLayers steadyInside areLoads =>
                  inductionHypothesis _ parent _ areLayers steadyInside ?_
              rw [areLoads, isName, stays]
              omega

/-! ### Steps -/

/-- Where there is a step left, taking it leaves one less. -/
theorem ticks_single {expr : Expr → Prop} {body : List Node → Prop} {ascent : Overrides → Prop}
    (isLimited : environment.maxSteps = some limit) :
    (Accord.single environment expr body ascent).Ticks
      (fun states => Steady environment limit left (states ()))
      fun states => ∃ fewer, left = fewer + 1 ∧ Steady environment limit fewer (states ()) := by
  intro states span steady
  refine ⟨((states ()).tick environment.maxSteps span).1, fun _ => rfl, ?_⟩
  change ite _ (fun states : Unit → State => ∃ fewer, left = fewer + 1 ∧
    Steady environment limit fewer (states ())) (fun states => Steady environment limit left (states ()))
    fun _ => ((states ()).tick environment.maxSteps span).2
  rw [State.tick_goesOn]
  split
  · rename_i goesOn
    dsimp only
    rw [State.tick_of_goesOn span goesOn]
    simp only [State.goesOn, isLimited, Option.all_some, Bool.and_eq_true, Bool.not_eq_true',
      decide_eq_true_eq] at goesOn
    have isBudget := steady.budget goesOn.1
    exact ⟨left - 1, by omega, steady.holds, steady.coherent, fun _ => by dsimp only; omega⟩
  · rename_i stops
    dsimp only
    rw [isLimited] at stops ⊢
    cases isHalted : (states ()).halted with
    | true =>
        rw [State.tick_of_halted _ _ isHalted]
        exact steady
    | false =>
        have isOver : ¬(states ()).steps + 1 ≤ limit := by
          simpa [State.goesOn, isHalted] using stops
        rw [State.tick_of_stops isHalted isOver]
        exact ⟨⟨steady.holds.macros, steady.holds.namespaces, steady.holds.homes,
          steady.holds.callers, steady.holds.overrides⟩, steady.coherent, fun isRunning => by cases isRunning⟩

/-- Bodies end if their statements end with fewer steps left. -/
theorem ends_render (isLimited : environment.maxSteps = some limit) {nodes : List Node}
    (carried : ∀ fewer < left, ∀ node ∈ nodes, Run.Ends environment limit fewer
      ((Action.carryOut node).perform environment (unbounded environment))) :
    ((unbounded environment).render nodes).Ends environment limit left := by
  rw [unbounded_render]
  have ticks : (Accord.grounded environment).Ticks
      (fun states => Steady environment limit left (states ()))
      fun states => ∃ fewer, left = fewer + 1 ∧ Steady environment limit fewer (states ()) :=
    ticks_single isLimited
  refine abreast_iff_ends.mp (@Accord.abreast_renderAll _ _ none _ (fun _ => unbounded environment)
    _ ticks ?_ nodes ?_)
  · rintro states ⟨fewer, rfl, steady⟩
    exact steady.weaken (Nat.le_succ fewer)
  · rintro node member states ⟨fewer, rfl, steady⟩
    obtain ⟨text, after, isText, steadyAfter⟩ :=
      carried fewer (Nat.lt_succ_self fewer) node member steady
    exact .inr ⟨text, fun _ => after, fun _ => isText, fewer, rfl, steadyAfter⟩

end Ends

/-! ### Whole renders -/

/-- Whether the tags that a host has added bring in nothing but statements of a material. -/
def Material.Tags (material : Material) (environment : Environment) : Prop :=
  ∀ ⦃name : String⦄ ⦃renderer : Host.TagRenderer⦄, environment.renderer? name = some renderer →
    ∀ tag : Host.Tag, (∀ body ∈ tag.body, material.Body body) →
      (renderer tag).RendersOnly material.Body

/-- A render by itself. -/
abbrev Accord.unaided (environment : Environment) : Accord Unit :=
  .single environment (fun _ => True) Material.plain.Body Material.plain.Layers

theorem whole_unaided : (Accord.unaided environment).Whole .plain where
  toUniform := uniform_single (fun _ _ => trivial) (fun _ => trivial) id
  ascent _ areLayers _ := areLayers
  parent _ _ := trivial
  anySetting := id

theorem permits_of_rendersOnly {script : Host.TagScript}
    (renders : script.RendersOnly Material.plain.Body) :
    Accord.Uniform.Permits (Accord.unaided environment) .plain script := by
  induction renders with
  | done text => exact .done text
  | evaluate _ inductionHypothesis => exact .evaluate trivial inductionHypothesis
  | render isBody _ inductionHypothesis => exact .render isBody inductionHypothesis
  | renderWith isBody _ inductionHypothesis => exact .renderWith isBody inductionHypothesis
  | lookup _ inductionHypothesis => exact .lookup trivial inductionHypothesis
  | report _ inductionHypothesis => exact .report trivial inductionHypothesis
  | depth _ inductionHypothesis =>
      exact .depth (fun {views} _ => ⟨(views ()).scopes.depth, fun _ => rfl⟩) inductionHypothesis
  | survey _ inductionHypothesis =>
      exact .survey _ (fun _ => rfl) (inductionHypothesis environment.facade)

section Limited

variable {limit : Nat} {names : List String}

/-- Bodies end with any number of steps left, by induction on it. -/
theorem ends_body (isLimited : environment.maxSteps = some limit)
    (finite : ∀ {name source}, environment.MayGive name source → name ∈ names)
    (sound : Material.plain.Loads environment) (tags : Material.plain.Tags environment)
    (left : Nat) {nodes : List Node} (isBody : Material.plain.Body nodes) :
    ((unbounded environment).render nodes).Ends environment limit left := by
  induction left using Nat.strongRecOn generalizing nodes with
  | ind left inductionHypothesis =>
      refine ends_render isLimited fun fewer isFewer node member => ?_
      have rendered : ∀ {nodes}, Material.plain.Body nodes →
          ((unbounded environment).render nodes).Ends environment limit fewer :=
        fun isBody => inductionHypothesis fewer isFewer isBody
      have carries : (Accord.unaided environment).Carries none
          (fun states => Steady environment limit fewer (states ())) fun _ => unbounded environment :=
        ⟨fun _ => abreast_iff_ends.mpr (ends_eval sound rendered _),
          fun isBody => abreast_iff_ends.mpr (rendered isBody),
          fun areLayers => abreast_iff_ends.mpr (ends_ascend sound finite rendered areLayers _),
          fun _ => Below.level_unbounded environment⟩
      refine abreast_iff_ends.mp (Accord.abreast_perform (Steady.keeps sound) carries
        (whole_unaided.carryOut (fun {tag} _ isBody _ => ?_) (fun _ _ => trivial) (isBody node member)))
      exact whole_unaided.renderCustom (fun same renderer isRenderer =>
        permits_of_rendersOnly (tags (same () ▸ isRenderer) tag isBody)) isBody

/-- Whole renders end. -/
theorem exists_depth_of_asks (isLimited : environment.maxSteps = some limit)
    (finite : ∀ {name source}, environment.MayGive name source → name ∈ names)
    (sound : Material.plain.Loads environment) (tags : Material.plain.Tags environment)
    {shelf : Shelf} (coherent : shelf.Coherent environment) (context : Table Value)
    {action : Action String} (asks : (Accord.unaided environment).Asks action) :
    ∃ depth outcome, ∀ more, depth ≤ more →
      outcomeOf environment more action (.initial context shelf) = some outcome := by
  have rendered : ∀ {nodes}, Material.plain.Body nodes →
      ((unbounded environment).render nodes).Ends environment limit limit :=
    ends_body isLimited finite sound tags limit
  have carries : (Accord.unaided environment).Carries none
      (fun states => Steady environment limit limit (states ())) fun _ => unbounded environment :=
    ⟨fun _ => abreast_iff_ends.mpr (ends_eval sound rendered _),
      fun isBody => abreast_iff_ends.mpr (rendered isBody),
      fun areLayers => abreast_iff_ends.mpr (ends_ascend sound finite rendered areLayers _),
      fun _ => Below.level_unbounded environment⟩
  have ends : (action.perform environment (unbounded environment)).Ends environment limit limit :=
    abreast_iff_ends.mp (Accord.abreast_perform (Steady.keeps sound) carries asks)
  have start : Steady environment limit limit (.initial context shelf) :=
    ⟨Material.holds_outside _ _ _, coherent, fun _ => Nat.le_add_left _ _⟩
  obtain ⟨text, last, isText, _⟩ := ends start
  obtain ⟨depth, performed⟩ := (Action.perform_unbounded _ _ _).mp isText
  refine ⟨depth, .ofState text last, fun more isLe => ?_⟩
  have deeper := rising_perform environment action isLe performed
  exact congrArg (Option.map _) deeper

end Limited

/-- A render with a limit on steps ends, with a text and reports, if there are templates of finitely
many names and no default of a parameter has a call in it. -/
theorem limited_render_ends (environment : Environment) (limit : Nat)
    (isLimited : environment.maxSteps = some limit) (names : List String)
    (finite : ∀ name source, environment.MayGive name source → name ∈ names)
    (sound : Material.plain.Loads environment) (tags : Material.plain.Tags environment)
    (shelf : Shelf) (coherent : shelf.Coherent environment) (context : Table Value) :
    (∀ name, ∃ depth outcome, ∀ more, depth ≤ more →
      renderNamedWithin more environment name context shelf = some outcome) ∧
    ∀ template : Template, (∀ node ∈ template.body, node.PlainDefaults) →
      ∃ depth outcome, ∀ more, depth ≤ more →
        renderTemplateWithin more environment template context shelf = some outcome :=
  ⟨fun name => exists_depth_of_asks isLimited (finite _ _) sound tags coherent context
      (whole_unaided.renderNamed trivial name),
    fun template isBody => exists_depth_of_asks isLimited (finite _ _) sound tags coherent context
      (whole_unaided.renderTemplate template.displayName isBody)⟩

/-- The page with a part embedded in it, with four steps at most. -/
theorem limited_render_ends_album :
    let environment : Environment := { album with maxSteps := some 4 }
    environment.maxSteps = some 4 ∧
      (∀ name source, environment.MayGive name source → name ∈ ["page", "part"]) ∧
      Material.plain.Loads environment ∧ Material.plain.Tags environment ∧
      Shelf.empty.Coherent environment ∧
      ∃ depth outcome, ∀ more, depth ≤ more →
        renderNamedWithin more environment "page" [] .empty = some outcome := by
  intro environment
  have texts : ∀ {name source}, environment.MayGive name source →
      (name = "page" ∧ source = "\x7b% include 'part' %\x7d!") ∨ (name = "part" ∧ source = "hi\x7b%") := by
    rintro name source ⟨before, isText⟩
    change (Host.Loader.ofTable [("page", _), ("part", _)] before name).toOption = some source
      at isText
    by_cases isPage : "page" = name
    · simp only [Host.Loader.ofTable, Host.Loader.steady, Table.lookup?, isPage, if_true] at isText
      exact .inl ⟨isPage.symm, (Option.some.inj isText).symm⟩
    · by_cases isPart : "part" = name
      · simp only [Host.Loader.ofTable, Host.Loader.steady, Table.lookup?, if_neg isPage, isPart,
          if_true] at isText
        exact .inr ⟨isPart.symm, (Option.some.inj isText).symm⟩
      · simp only [Host.Loader.ofTable, Host.Loader.steady, Table.lookup?, if_neg isPage,
          if_neg isPart] at isText
        cases isText
  have finite : ∀ name source, environment.MayGive name source → name ∈ ["page", "part"] := by
    intro name source isText
    rcases texts isText with ⟨rfl, _⟩ | ⟨rfl, _⟩ <;> decide
  have sound : Material.plain.Loads environment := by
    intro name source isText
    have isFlat : (environment.parse name source).template.body.all
        (fun node => node.params.isEmpty && node.bodies.isEmpty) = true := by
      rcases texts isText with ⟨rfl, rfl⟩ | ⟨rfl, rfl⟩ <;> decide +kernel
    exact fun node member =>
      Node.PlainDefaults.of_flat (List.all_eq_true.mp isFlat node member)
  have tags : Material.plain.Tags environment := by
    intro name renderer isRenderer
    cases isRenderer
  have coherent := Shelf.coherent_empty environment
  exact ⟨rfl, finite, sound, tags, coherent,
    (limited_render_ends environment 4 rfl _ finite sound tags .empty coherent []).1 "page"⟩

/-! ### Calls in defaults -/

/-- A call without arguments has no value if the default of the macro's first parameter has none: no
step is taken, and no call is counted, before the default is evaluated. -/
theorem callName_none {below : Below} {name : String} {callable : Macro} {param : Syntax.Param}
    {rest : List Syntax.Param} {state : State} {expr : Expr}
    (isMacro : state.macros.lookup? name = some callable) (outside : state.place.homes = [])
    (isOrdinary : name ≠ "caller" ∧ name ≠ "super")
    (isShallow : state.place.callDepth < callLimit)
    (areParams : callable.definition.params = param :: rest) (isDefault : param.default = some expr)
    (isNone : below.eval expr state = none) :
    (Action.callName name [] none default).perform environment below state = none := by
  have isFound : (Action.findMacro? name).perform environment below state =
      some (some callable, state) := by
    simp only [Action.findMacro?, bind, Action.view, Action.andThen, Action.perform, outside,
      List.head?_nil, Option.bind_none, pure, isMacro]
  have isBound : (Action.bindParams callable.definition.name callable.definition.params ⟨[], []⟩
      default).perform environment below state = none := by
    rw [areParams, Action.bindParams, Action.bindAfter]
    change (Action.andThen _ _).perform environment _ state = none
    rw [Action.perform_andThen]
    simp only [Action.valueOfParam, Table.lookup?_nil, isDefault, Action.perform_valueOf, isNone,
      Option.bind_none]
  simp only [Action.callName, Action.callerFor?, if_neg isOrdinary.1, if_neg isOrdinary.2, bind,
    pure, Action.andThen, Action.perform_andThen, isFound, Option.bind_some, Action.argumentsOf,
    Action.argumentsAfter, Action.callMacro, Action.unlessTooDeep, Action.view, Action.perform,
    ge_iff_le, Nat.not_le.mpr isShallow, if_false, isBound, Option.bind_none]

/-- A macro whose first parameter has a call of the macro itself as its default has no value at any
depth. -/
theorem eval_endless {name : String} {callable : Macro} {param : Syntax.Param}
    {rest : List Syntax.Param} {state : State}
    (isMacro : state.macros.lookup? name = some callable) (outside : state.place.homes = [])
    (isOrdinary : name ≠ "caller" ∧ name ≠ "super")
    (isShallow : state.place.callDepth < callLimit)
    (areParams : callable.definition.params = param :: rest)
    (isDefault : param.default = some (.call (.name name default) [] default)) (depth : Nat) :
    (belowDepth environment depth).eval (.call (.name name default) [] default) state = none := by
  induction depth with
  | zero => rfl
  | succ depth inductionHypothesis =>
      exact callName_none isMacro outside isOrdinary isShallow areParams isDefault inductionHypothesis

/-- A macro whose parameter has a call of the macro as its default. -/
def looping : Syntax.MacroDefinition :=
  ⟨"m", [⟨"x", some (.call (.name "m" default) [] default), default⟩], [], default⟩

/-- A template that defines the macro and calls it. -/
def runaway : Template :=
  ⟨none, [.define looping.name looping.params looping.body default,
    .output (.call (.name "m" default) [] default) default], default⟩

/-- No depth is enough for it, although the render may take ten steps only. -/
theorem limited_render_endless :
    let environment : Environment := { Environment.empty with maxSteps := some 10 }
    environment.maxSteps = some 10 ∧ environment.loader? = none ∧
      ∀ depth, renderTemplateWithin depth environment runaway [] .empty = none := by
  intro environment
  refine ⟨rfl, rfl, fun depth => ?_⟩
  cases depth with
  | zero => rfl
  | succ depth =>
      let start := State.initial [] .empty
      let state : State := { start with
        macros := [("m", ⟨looping, [("m", looping)]⟩)]
        place := { Place.outside with loads := ["<template>"], templates := ["<template>"] }
        steps := 2 }
      have endless : (belowDepth environment depth).eval (.call (.name "m" default) [] default) state =
          none := eval_endless rfl rfl ⟨by decide, by decide⟩ (by decide) rfl rfl depth
      have output : (Action.carryOut (.output (.call (.name "m" default) [] default) default)).perform
          environment (belowDepth environment depth) state = none := by
        change ((Action.valueOf _).andThen _).perform environment (belowDepth environment depth)
          state = none
        rw [Action.perform_andThen, Action.perform_valueOf, endless, Option.bind_none]
      have body : (belowDepth environment (depth + 1)).render runaway.body
          { state with steps := 0 } = none := by
        change renderAll environment (belowDepth environment depth)
          [.define looping.name looping.params looping.body default,
            .output (.call (.name "m" default) [] default) default] { state with steps := 0 } = none
        rw [renderAll_cons, if_pos (by decide)]
        change ((renderAll environment (belowDepth environment depth)
          [.output (.call (.name "m" default) [] default) default] { state with steps := 1 }).map _) =
          none
        rw [renderAll_cons, if_pos (by decide)]
        change ((Option.bind (Action.perform environment (belowDepth environment depth)
          (Action.carryOut (.output _ _)) state) _).map _) = none
        rw [output]
        rfl
      change Option.map _ ((Action.renderTemplate "<template>" runaway).perform environment
        (belowDepth environment (depth + 1)) start) = none
      rw [Action.renderTemplate, Action.inSetting, Action.perform_within]
      change Option.map _ (Option.bind ((Action.textOf runaway.body).perform environment
        (belowDepth environment (depth + 1)) { state with steps := 0 }) _) = none
      rw [Action.textOf, Action.perform_render, body]
      rfl

end Stencil.Render
