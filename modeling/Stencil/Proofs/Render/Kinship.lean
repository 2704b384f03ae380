import Stencil.Proofs.Render.Advance
import Stencil.Proofs.Syntax.Akin

/-!
Contract: two renders of trees that are akin.

Owns:
- what the places of both renders, and what both see, have in common;
- what a kinship leaves open: how the spans of the trees correspond, what is reported, and what of
  the rest of the states is compared;
- actions that ask the same of both renders, and that such actions have the same answers: what each
  request does is looked at once, in `Kinship.abreast_perform`.

One of the renders leads: if it has no answer, nothing is said about the other one. In a lenient
kinship the first render may stand inside of more templates and more calls than the second one, and
is not looked at any more once it reports that there are too many of them.

Does not own: which actions ask the same (`Stencil.Proofs.Render.Kindred`), and kinships.
-/

set_option autoImplicit false

namespace Stencil.Render

open Stencil.Host (Environment Loaded Shelf)
open Stencil.Report (Diagnostic)
open Stencil.Syntax
open Stencil.Text (Span)

variable {α β : Type}

/-! ### Trees in states -/

section Trees

variable (trees : Likeness)

inductive Caller.Akin : Caller → Caller → Prop where
  | rendered (text : String) : Caller.Akin (.rendered text) (.rendered text)
  | deferred {params params' : List Param} {body body' : List Node}
      (given : ∀ source, List.Forall₂ (Param.Akin (trees.places source)) params params')
      (inner : ∀ source, Nodes.Akin trees source body body') :
      Caller.Akin (.deferred params body) (.deferred params' body')

/-- Whether two tables define macros of the same names that are akin. -/
abbrev HomeAkin (home home' : Table MacroDefinition) : Prop :=
  Table.Akin (MacroDefinition.Akin trees) home home'

structure Macro.Akin (callable callable' : Macro) : Prop where
  definition : callable.definition.Akin trees callable'.definition
  home : HomeAkin trees callable.home callable'.home

structure Level.Akin (level level' : Level) : Prop where
  template : level.template = level'.template
  body : Nodes.Akin trees level.template level.body level'.body

abbrev Overrides.Akin (overrides overrides' : Overrides) : Prop :=
  Table.Akin (List.Forall₂ (Level.Akin trees)) overrides overrides'

inductive Setting.Akin : Setting → Setting → Prop where
  | frame (bindings : Table Value) : Setting.Akin (.frame bindings) (.frame bindings)
  | call {caller caller' : Option Caller} {home home' : Table MacroDefinition}
      (handed : Option.Rel (Caller.Akin trees) caller caller')
      (sisters : HomeAkin trees home home') : Setting.Akin (.call caller home) (.call caller' home')
  | callSite : Setting.Akin .callSite .callSite
  | loop : Setting.Akin .loop .loop
  | block (name : String) (level : Nat) (origin : String) :
      Setting.Akin (.block name level origin) (.block name level origin)
  | template (name : String) : Setting.Akin (.template name) (.template name)
  | chain {overrides overrides' : Overrides} (layers : overrides.Akin trees overrides') :
      Setting.Akin (.chain overrides) (.chain overrides')
  | embedded (withContext : Bool) : Setting.Akin (.embedded withContext) (.embedded withContext)

/-- Whether what both renders see, apart from their places, is the same but for trees that are
akin. -/
structure Sights (view view' : View) : Prop where
  scopes : view.scopes = view'.scopes
  macros : Table.Akin (Macro.Akin trees) view.macros view'.macros
  namespaces : Table.Akin (HomeAkin trees) view.namespaces view'.namespaces
  halted : view.halted = view'.halted

structure Loaded.Akin (loaded loaded' : Loaded) : Prop where
  name : loaded.name = loaded'.name
  body : Nodes.Akin trees loaded.name loaded.template.body loaded'.template.body

inductive LoadAkin : Except Host.LoadFault Loaded → Except Host.LoadFault Loaded → Prop where
  | error (fault : Host.LoadFault) : LoadAkin (.error fault) (.error fault)
  | ok {loaded loaded' : Loaded} (akin : Loaded.Akin trees loaded loaded') :
      LoadAkin (.ok loaded) (.ok loaded')

end Trees

/-- The name of the template whose statements are being rendered. -/
def Place.source (place : Place) : String := place.templates.headD ""

/-- The part of a render's state that its course does not depend on, with the stack that reports
depend on. -/
structure Ledger where
  templates : List String
  steps : Nat
  shelf : Shelf
  reported : List String
  problems : Array Diagnostic

def State.ledger (state : State) : Ledger :=
  ⟨state.place.templates, state.steps, state.shelf, state.reported, state.problems⟩

/-- The name that a report carries depends on the stack of templates only. -/
theorem State.ascribe_of_templates {place place' : Place}
    (same : place.templates = place'.templates) (diagnostic : Diagnostic) :
    State.ascribe place diagnostic = State.ascribe place' diagnostic := by
  unfold State.ascribe
  rw [same]

/-! ### Kinships -/

/-- What two renders for a host have to do with one another. -/
structure Kinship where
  environment : Environment
  trees : Likeness
  /-- What may be reported while a template is rendered. -/
  told : String → Diagnostic → Diagnostic → Prop
  ledgers : Ledger → Ledger → Prop
  lenient : Prop
  /-- The reports of the first render after which nothing is said about it. -/
  spoilt : List Diagnostic → Prop

/-- Whether a problem is that there are too many templates or calls to be inside of. -/
def Problem.isNesting : Problem → Bool
  | .templateCycle _ _ => true
  | .recursionLimit depth => depth == callLimit
  | _ => false

/-- Whether an action comes to report that there are too many templates or calls to be inside of. -/
inductive Action.Loses : Action α → Prop where
  | report {problem : Problem} {span : Span} {next : Action α}
      (isNesting : problem.isNesting = true) : Loses (.report (problem.at_ span) next)
  | look {next : View → Action α} (rest : ∀ view, Loses (next view)) : Loses (.look next)

theorem Action.Loses.andThen {action : Action α} (loses : action.Loses) (rest : α → Action β) :
    (action.andThen rest).Loses := by
  induction loses with
  | report isNesting => exact .report isNesting
  | look _ inductionHypothesis => exact .look inductionHypothesis

namespace Kinship

variable (kin : Kinship)

/-- How the spans of trees correspond while a template is rendered. -/
abbrev places : String → Span → Span → Prop := kin.trees.places

/-- What the places of both renders have in common. -/
structure PlaceAkin (place place' : Place) : Prop where
  overrides : place.overrides.Akin kin.trees place'.overrides
  supers : place.supers = place'.supers
  callers : List.Forall₂ (Option.Rel (Caller.Akin kin.trees)) place.callers place'.callers
  homes : List.Forall₂ (HomeAkin kin.trees) place.homes place'.homes
  loopDepth : place.loopDepth = place'.loopDepth
  loads : ∀ name ∈ place'.loads, name ∈ place.loads
  calls : place'.callDepth ≤ place.callDepth
  exact : kin.lenient ∨ place.loads = place'.loads ∧ place.callDepth = place'.callDepth

/-- Whether both renders stand at two places, see the same, and have done the same so far. -/
structure Together (place place' : Place) (state state' : State) : Prop where
  place : state.place = place
  place' : state'.place = place'
  sights : Sights kin.trees state.toView state'.toView
  ledgers : kin.ledgers state.ledger state'.ledger

/-- Whether the scripts of a tag ask the same of both renders. -/
inductive ScriptAkin (source : String) : Host.TagScript → Host.TagScript → Prop where
  | done (text : String) : ScriptAkin source (.done text) (.done text)
  | evaluate {expr expr' : Expr} {next next' : Value → Host.TagScript}
      (akin : expr.Akin (kin.places source) expr')
      (rest : ∀ value, ScriptAkin source (next value) (next' value)) :
      ScriptAkin source (.evaluate expr next) (.evaluate expr' next')
  | render {body body' : List Node} {next next' : String → Host.TagScript}
      (akin : Nodes.Akin kin.trees source body body')
      (rest : ∀ text, ScriptAkin source (next text) (next' text)) :
      ScriptAkin source (.render body next) (.render body' next')
  | renderWith {bindings : Table Value} {body body' : List Node}
      {next next' : String → Host.TagScript} (akin : Nodes.Akin kin.trees source body body')
      (rest : ∀ text, ScriptAkin source (next text) (next' text)) :
      ScriptAkin source (.renderWith bindings body next) (.renderWith bindings body' next')
  | lookup {name : String} {next next' : Option Value → Host.TagScript}
      (rest : ∀ value, ScriptAkin source (next value) (next' value)) :
      ScriptAkin source (.lookup name next) (.lookup name next')
  | report {diagnostic diagnostic' : Diagnostic} {next next' : Host.TagScript}
      (told : kin.told source diagnostic diagnostic') (rest : ScriptAkin source next next') :
      ScriptAkin source (.report diagnostic next) (.report diagnostic' next')
  | depth {next next' : Nat → Host.TagScript}
      (rest : ∀ depth, ScriptAkin source (next depth) (next' depth)) :
      ScriptAkin source (.depth next) (.depth next')
  | survey {next next' : Host.Facade → Host.TagScript}
      (rest : ScriptAkin source (next kin.environment.facade) (next' kin.environment.facade)) :
      ScriptAkin source (.survey next) (.survey next')

structure TagAkin (source : String) (tag tag' : Host.Tag) : Prop where
  seen : kin.trees.tags source tag tag'
  name : tag.name = tag'.name
  args : Expr.ArgsAkin (kin.places source) tag.args tag'.args
  body : Syntax.Otherwise.Akin kin.trees source tag.body tag'.body
  at_ : kin.places source tag.span tag'.span

/-- Whether what a kinship compares is kept by all requests. -/
structure Sound : Prop where
  told : ∀ {source span span'} (problem : Problem), kin.places source span span' →
    kin.told source (problem.at_ span) (problem.at_ span')
  report : ∀ {state state' : State} {diagnostic diagnostic'},
    kin.ledgers state.ledger state'.ledger → kin.told state.place.source diagnostic diagnostic' →
      kin.ledgers (state.report diagnostic).ledger (state'.report diagnostic').ledger
  pace : ∀ {ledger ledger'}, kin.ledgers ledger ledger' →
    kin.environment.maxSteps = none ∨ ledger.steps = ledger'.steps
  step : ∀ {ledger ledger'}, kin.ledgers ledger ledger' →
    kin.ledgers { ledger with steps := ledger.steps + 1 } { ledger' with steps := ledger'.steps + 1 }
  load : ∀ {state state' : State} (name : String), kin.ledgers state.ledger state'.ledger →
    LoadAkin kin.trees (state.load kin.environment name).1 (state'.load kin.environment name).1 ∧
      kin.ledgers (state.load kin.environment name).2.ledger
        (state'.load kin.environment name).2.ledger
  enter : ∀ {ledger ledger'} (template : String), kin.ledgers ledger ledger' →
    kin.ledgers { ledger with templates := template :: ledger.templates }
      { ledger' with templates := template :: ledger'.templates }
  leave : ∀ {before before' after after'}, kin.ledgers before before' → kin.ledgers after after' →
    kin.ledgers { after with templates := before.templates }
      { after' with templates := before'.templates }
  spoil : kin.lenient → ∀ {ledger ledger'}, kin.ledgers ledger ledger' →
    ∀ {problem : Problem}, problem.isNesting = true → ∀ (place : Place) (span : Span),
      kin.spoilt (ledger.problems.toList ++ [State.ascribe place (problem.at_ span)])
  spoilt : ∀ {problems more : List Diagnostic}, problems <+: more → kin.spoilt problems →
    kin.spoilt more
  script : ∀ {name renderer}, kin.environment.renderer? name = some renderer →
    ∀ {source tag tag'}, kin.TagAkin source tag tag' →
      kin.ScriptAkin source (renderer tag) (renderer tag')

variable {kin}

/-! ### Actions -/

/-- Whether actions ask the same of both renders, which stand at two places, with related answers. -/
inductive Alike (kin : Kinship) :
    Place → Place → {α : Type} → (α → α → Prop) → Action α → Action α → Prop where
  | done {place place' : Place} {α : Type} {rel : α → α → Prop} {answer answer' : α}
      (related : rel answer answer') : kin.Alike place place' rel (.done answer) (.done answer')
  | eval {place place' : Place} {α : Type} {rel : α → α → Prop} {expr expr' : Expr}
      {next next' : Value → Action α} (akin : expr.Akin (kin.places place.source) expr')
      (rest : ∀ value, kin.Alike place place' rel (next value) (next' value)) :
      kin.Alike place place' rel (.eval expr next) (.eval expr' next')
  | render {place place' : Place} {α : Type} {rel : α → α → Prop} {nodes nodes' : List Node}
      {next next' : String → Action α} (akin : Nodes.Akin kin.trees place.source nodes nodes')
      (rest : ∀ text, kin.Alike place place' rel (next text) (next' text)) :
      kin.Alike place place' rel (.render nodes next) (.render nodes' next')
  | ascend {place place' : Place} {α : Type} {rel : α → α → Prop} {overrides overrides' : Overrides}
      {parent parent' : Expr} {next next' : String → Action α}
      (layers : overrides.Akin kin.trees overrides')
      (akin : parent.Akin (kin.places place.source) parent')
      (rest : ∀ text, kin.Alike place place' rel (next text) (next' text)) :
      kin.Alike place place' rel (.ascend overrides parent next) (.ascend overrides' parent' next')
  | look {place place' : Place} {α : Type} {rel : α → α → Prop} {next next' : View → Action α}
      (rest : ∀ view view' : View, view.place = place → view'.place = place' →
        Sights kin.trees view view' → kin.Alike place place' rel (next view) (next' view')) :
      kin.Alike place place' rel (.look next) (.look next')
  | consult {place place' : Place} {α : Type} {rel : α → α → Prop}
      {next next' : Host.Registry → Action α}
      (rest : kin.Alike place place' rel (next kin.environment.toRegistry)
        (next' kin.environment.toRegistry)) :
      kin.Alike place place' rel (.consult next) (.consult next')
  | survey {place place' : Place} {α : Type} {rel : α → α → Prop}
      {next next' : Host.Facade → Action α}
      (rest : kin.Alike place place' rel (next kin.environment.facade)
        (next' kin.environment.facade)) :
      kin.Alike place place' rel (.survey next) (.survey next')
  | report {place place' : Place} {α : Type} {rel : α → α → Prop}
      {diagnostic diagnostic' : Diagnostic} {next next' : Action α}
      (told : kin.told place.source diagnostic diagnostic')
      (rest : kin.Alike place place' rel next next') :
      kin.Alike place place' rel (.report diagnostic next) (.report diagnostic' next')
  | complain {place place' : Place} {α : Type} {rel : α → α → Prop} {lookup : Lookup}
      {diagnostic diagnostic' : Diagnostic} {next next' : Action α}
      (told : kin.told place.source diagnostic diagnostic')
      (rest : kin.Alike place place' rel next next') :
      kin.Alike place place' rel (.complain lookup diagnostic next)
        (.complain lookup diagnostic' next')
  | bindName {place place' : Place} {α : Type} {rel : α → α → Prop} {name : String} {value : Value}
      {next next' : Action α} (rest : kin.Alike place place' rel next next') :
      kin.Alike place place' rel (.bindName name value next) (.bindName name value next')
  | store {place place' : Place} {α : Type} {rel : α → α → Prop} {root : String}
      {path : List Value.Key} {key : Value.Key} {value : Value}
      {next next' : Option String → Action α}
      (rest : ∀ refusal, kin.Alike place place' rel (next refusal) (next' refusal)) :
      kin.Alike place place' rel (.store root path key value next) (.store root path key value next')
  | define {place place' : Place} {α : Type} {rel : α → α → Prop} {name : String}
      {callable callable' : Macro} {next next' : Action α}
      (akin : callable.Akin kin.trees callable') (rest : kin.Alike place place' rel next next') :
      kin.Alike place place' rel (.define name callable next) (.define name callable' next')
  | mount {place place' : Place} {α : Type} {rel : α → α → Prop} {name : String}
      {macros macros' : Table MacroDefinition} {next next' : Action α}
      (akin : HomeAkin kin.trees macros macros') (rest : kin.Alike place place' rel next next') :
      kin.Alike place place' rel (.mount name macros next) (.mount name macros' next')
  | load {place place' : Place} {α : Type} {rel : α → α → Prop} {name : String}
      {next next' : Except Host.LoadFault Loaded → Action α}
      (rest : ∀ answer answer', LoadAkin kin.trees answer answer' →
        kin.Alike place place' rel (next answer) (next' answer')) :
      kin.Alike place place' rel (.load name next) (.load name next')
  | within {place place' : Place} {α β : Type} {rel : α → α → Prop} {relInner : β → β → Prop}
      {setting setting' : Setting} {inner inner' : Action β} {next next' : β → Action α}
      (akin : setting.Akin kin.trees setting')
      (inside : kin.Alike (setting.place place) (setting'.place place') relInner inner inner')
      (rest : ∀ answer answer', relInner answer answer' →
        kin.Alike place place' rel (next answer) (next' answer')) :
      kin.Alike place place' rel (.within setting inner next) (.within setting' inner' next')
  | lost {place place' : Place} {α : Type} {rel : α → α → Prop} {action other : Action α}
      (isLenient : kin.lenient) (loses : action.Loses) : kin.Alike place place' rel action other

theorem Alike.andThen {place place' : Place} {relFirst : α → α → Prop} {rel : β → β → Prop}
    {first first' : Action α} {rest rest' : α → Action β}
    (alike : kin.Alike place place' relFirst first first')
    (alikeRest : ∀ answer answer', relFirst answer answer' →
      kin.Alike place place' rel (rest answer) (rest' answer')) :
    kin.Alike place place' rel (first.andThen rest) (first'.andThen rest') := by
  induction alike with
  | done related => exact alikeRest _ _ related
  | eval akin _ inductionHypothesis =>
      exact .eval akin fun value => inductionHypothesis value alikeRest
  | render akin _ inductionHypothesis =>
      exact .render akin fun text => inductionHypothesis text alikeRest
  | ascend layers akin _ inductionHypothesis =>
      exact .ascend layers akin fun text => inductionHypothesis text alikeRest
  | look _ inductionHypothesis =>
      exact .look fun view view' isHere isThere sights =>
        inductionHypothesis view view' isHere isThere sights alikeRest
  | consult _ inductionHypothesis => exact .consult (inductionHypothesis alikeRest)
  | survey _ inductionHypothesis => exact .survey (inductionHypothesis alikeRest)
  | report told _ inductionHypothesis => exact .report told (inductionHypothesis alikeRest)
  | complain told _ inductionHypothesis => exact .complain told (inductionHypothesis alikeRest)
  | bindName _ inductionHypothesis => exact .bindName (inductionHypothesis alikeRest)
  | store _ inductionHypothesis => exact .store fun refusal => inductionHypothesis refusal alikeRest
  | define akin _ inductionHypothesis => exact .define akin (inductionHypothesis alikeRest)
  | mount akin _ inductionHypothesis => exact .mount akin (inductionHypothesis alikeRest)
  | load _ inductionHypothesis =>
      exact .load fun answer answer' akin => inductionHypothesis answer answer' akin alikeRest
  | within akin inside _ _ inductionHypothesis =>
      exact .within akin inside fun answer answer' related =>
        inductionHypothesis answer answer' related alikeRest
  | lost isLenient loses => exact .lost isLenient (loses.andThen rest)

/-! ### Places and settings -/

theorem PlaceAkin.enter {place place' : Place} {setting setting' : Setting}
    (akin : kin.PlaceAkin place place') (entered : setting.Akin kin.trees setting') :
    kin.PlaceAkin (setting.place place) (setting'.place place') := by
  cases entered with
  | frame bindings => exact akin
  | call handed sisters =>
      exact { akin with
        callers := .cons handed akin.callers
        homes := .cons sisters akin.homes
        calls := Nat.succ_le_succ akin.calls
        exact := akin.exact.imp_right fun same => ⟨same.1, congrArg (· + 1) same.2⟩ }
  | callSite =>
      exact { akin with
        callers := forall₂_tail akin.callers
        homes := forall₂_tail akin.homes
        calls := Nat.succ_le_succ akin.calls
        exact := akin.exact.imp_right fun same => ⟨same.1, congrArg (· + 1) same.2⟩ }
  | loop => exact { akin with loopDepth := congrArg (· + 1) akin.loopDepth }
  | block name level origin =>
      exact { akin with supers := congrArg ((name, level) :: ·) akin.supers }
  | template name =>
      refine { akin with
        loads := fun other member => ?_
        exact := akin.exact.imp_right fun same => ⟨congrArg (name :: ·) same.1, same.2⟩ }
      rcases List.mem_cons.mp member with rfl | inRest
      · exact List.mem_cons_self
      · exact List.mem_cons_of_mem _ (akin.loads other inRest)
  | chain layers => exact { akin with overrides := layers }
  | embedded withContext =>
      exact { akin with overrides := .nil, supers := rfl, callers := .nil, homes := .nil }

theorem placeAkin_outside (kin : Kinship) : kin.PlaceAkin .outside .outside where
  overrides := .nil
  supers := rfl
  callers := .nil
  homes := .nil
  loopDepth := rfl
  loads := fun _ => id
  calls := Nat.le_refl _
  exact := .inr ⟨rfl, rfl⟩

namespace Together

variable {place place' : Place} {state state' : State}

theorem enter {setting setting' : Setting} (sound : kin.Sound)
    (together : kin.Together place place' state state') (entered : setting.Akin kin.trees setting') :
    kin.Together (setting.place place) (setting'.place place')
      { state with toView := setting.enter state.toView }
      { state' with toView := setting'.enter state'.toView } := by
  obtain ⟨rfl, rfl, sights, ledgers⟩ := together
  refine ⟨rfl, rfl, ?_, ?_⟩
  · have scopes : setting.scopes state.scopes = setting'.scopes state'.scopes := by
      rw [sights.scopes]
      cases entered <;> rfl
    exact { sights with scopes := scopes }
  · cases entered with
    | block name level origin => exact sound.enter origin ledgers
    | template name => exact sound.enter name ledgers
    | _ => exact ledgers

theorem leave {setting setting' : Setting} {after after' : State} (sound : kin.Sound)
    (together : kin.Together place place' state state') (entered : setting.Akin kin.trees setting')
    (inside : kin.Together (setting.place place) (setting'.place place') after after') :
    kin.Together place place' { after with toView := setting.leave state.toView after.toView }
      { after' with toView := setting'.leave state'.toView after'.toView } := by
  obtain ⟨rfl, rfl, sights, ledgers⟩ := together
  obtain ⟨isInside, isInside', sightsInside, ledgersInside⟩ := inside
  have isPlace : (setting.leave state.toView after.toView).place = state.place := by
    rw [← setting.placeAfter_place state.place, ← isInside]
    cases entered <;> rfl
  have isPlace' : (setting'.leave state'.toView after'.toView).place = state'.place := by
    rw [← setting'.placeAfter_place state'.place, ← isInside']
    cases entered <;> rfl
  refine ⟨isPlace, isPlace', ?_, ?_⟩
  · have scopes : setting.scopesAfter state.scopes after.scopes =
        setting'.scopesAfter state'.scopes after'.scopes := by
      rw [sights.scopes, sightsInside.scopes]
      cases entered <;> rfl
    cases entered with
    | embedded withContext =>
        exact ⟨scopes, sights.macros, sights.namespaces, sightsInside.halted⟩
    | _ => exact { sightsInside with scopes := scopes }
  · have left := sound.leave ledgers ledgersInside
    simpa only [State.ledger, isPlace, isPlace'] using left

end Together

/-! ### Runs -/

/-- Which of two renders leads. -/
inductive Lead where
  | first
  | second

/-- Whether nothing is said about the results of two renders: the one that leads has none, or has
reports after which nothing is said. -/
def Excused (kin : Kinship) (lead : Lead) (result : Option (α × State))
    (result' : Option (β × State)) : Prop :=
  match lead with
  | .first => ∀ answer after, result = some (answer, after) → kin.spoilt after.problems.toList
  | .second => result' = none

/-- Whether runs that start together end together with related answers, or are excused. -/
def Abreast (kin : Kinship) (lead : Lead) (place place' : Place) (rel : α → β → Prop)
    (run : Run α) (run' : Run β) : Prop :=
  ∀ ⦃state state' : State⦄, kin.Together place place' state state' →
    kin.Excused lead (run state) (run' state') ∨
      ∃ answer after answer' after', run state = some (answer, after) ∧
        run' state' = some (answer', after') ∧ rel answer answer' ∧
          kin.Together place place' after after'

/-- Whether the parts of actions are carried out abreast. -/
structure Carries (kin : Kinship) (lead : Lead) (below below' : Below) : Prop where
  eval : ∀ {place place'}, kin.PlaceAkin place place' → ∀ {expr expr'},
    expr.Akin (kin.places place.source) expr' →
      kin.Abreast lead place place' Eq (below.eval expr) (below'.eval expr')
  render : ∀ {place place'}, kin.PlaceAkin place place' → ∀ {nodes nodes'},
    Nodes.Akin kin.trees place.source nodes nodes' →
      kin.Abreast lead place place' Eq (below.render nodes) (below'.render nodes')
  ascend : ∀ {place place'}, kin.PlaceAkin place place' → ∀ {overrides overrides' parent parent'},
    overrides.Akin kin.trees overrides' → parent.Akin (kin.places place.source) parent' →
      kin.Abreast lead place place' Eq (below.ascend overrides parent)
        (below'.ascend overrides' parent')

variable {lead : Lead}

/-- What is excused stays so, whatever the renders go on with. -/
theorem Excused.bind {γ δ : Type} (sound : kin.Sound) {result : Option (α × State)}
    {result' : Option (β × State)} (excused : kin.Excused lead result result')
    {next : α × State → Option (γ × State)} {next' : β × State → Option (δ × State)}
    (onward : ∀ {middle last}, next middle = some last → Ahead kin.environment middle.2 last.2) :
    kin.Excused lead (result.bind next) (result'.bind next') := by
  cases lead with
  | first =>
      intro answer after isAnswer
      obtain ⟨middle, isMiddle, isAnswer⟩ := Option.bind_eq_some_iff.mp isAnswer
      exact sound.spoilt (onward isAnswer).problems (excused middle.1 middle.2 isMiddle)
  | second =>
      change result'.bind _ = none
      rw [show result' = none from excused, Option.bind_none]

theorem Abreast.bind (sound : kin.Sound) {place place' : Place} {γ δ : Type} {relFirst : α → β → Prop}
    {rel : γ → δ → Prop} {run : Run α} {run' : Run β} {rest : α → Run γ} {rest' : β → Run δ}
    (advances : ∀ answer, (rest answer).Advances kin.environment)
    (first : kin.Abreast lead place place' relFirst run run')
    (second : ∀ answer answer', relFirst answer answer' →
      kin.Abreast lead place place' rel (rest answer) (rest' answer')) :
    kin.Abreast lead place place' rel
      (fun state => (run state).bind fun answer => rest answer.1 answer.2)
      (fun state => (run' state).bind fun answer => rest' answer.1 answer.2) := by
  intro state state' together
  rcases first together with excused | ⟨answer, after, answer', after', isAnswer, isAnswer', related,
    together⟩
  · exact .inl (excused.bind sound fun isLast => advances _ isLast)
  · simp only [isAnswer, isAnswer', Option.bind_some]
    exact second answer answer' related together

/-- Parts with the same answer that actions go on with. -/
theorem Abreast.bindEq (sound : kin.Sound) {place place' : Place} {run run' : Run α}
    {rel : β → β → Prop} {below below' : Below} {next next' : α → Action β}
    (onward : ∀ {β : Type} (action : Action β),
      Run.Advances kin.environment (action.perform kin.environment below))
    (first : kin.Abreast lead place place' Eq run run')
    (second : ∀ answer, kin.Abreast lead place place' rel
      ((next answer).perform kin.environment below) ((next' answer).perform kin.environment below')) :
    kin.Abreast lead place place' rel
      (fun state => (run state).bind fun answer =>
        (next answer.1).perform kin.environment below answer.2)
      (fun state => (run' state).bind fun answer =>
        (next' answer.1).perform kin.environment below' answer.2) := by
  have same : ∀ answer answer', answer = answer' → kin.Abreast lead place place' rel
      ((next answer).perform kin.environment below)
      ((next' answer').perform kin.environment below') := by
    rintro answer _ rfl
    exact second answer
  exact first.bind sound (fun answer => onward (next answer)) same

/-- Nothing is said about a render that comes to report that it is inside of too much. -/
theorem spoilt_of_loses (sound : kin.Sound) (isLenient : kin.lenient) {below : Below}
    {state state' : State} (ledgers : kin.ledgers state.ledger state'.ledger)
    (onward : ∀ {β : Type} (action : Action β),
      Run.Advances kin.environment (action.perform kin.environment below)) {action : Action α}
    (loses : action.Loses) (answer : α) (after : State)
    (isAnswer : action.perform kin.environment below state = some (answer, after)) :
    kin.spoilt after.problems.toList := by
  induction loses with
  | @report problem span next isNesting =>
      refine sound.spoilt (onward next isAnswer).problems ?_
      rw [show (state.report (problem.at_ span)).problems.toList = state.problems.toList ++
        [State.ascribe state.place (problem.at_ span)] by simp [State.report]]
      exact sound.spoil isLenient ledgers isNesting _ _
  | look _ inductionHypothesis => exact inductionHypothesis _ isAnswer

/-- Actions that ask the same are carried out abreast. -/
theorem abreast_perform (sound : kin.Sound) (strict : lead = .second → ¬kin.lenient)
    {below below' : Below} (advances : below.Advances kin.environment)
    (carries : kin.Carries lead below below') {place place' : Place} {rel : α → α → Prop}
    {action action' : Action α} (alike : kin.Alike place place' rel action action')
    (here : kin.PlaceAkin place place') :
    kin.Abreast lead place place' rel (action.perform kin.environment below)
      (action'.perform kin.environment below') := by
  have onward {α : Type} (action : Action α) := Action.advances_perform advances action
  induction alike with
  | done related =>
      intro state state' together
      exact .inr ⟨_, state, _, state', rfl, rfl, related, together⟩
  | eval akin _ inductionHypothesis =>
      intro state state' together
      simp only [Action.perform_eval]
      exact (carries.eval here akin).bindEq sound onward
        (fun value => inductionHypothesis value here) together
  | render akin _ inductionHypothesis =>
      intro state state' together
      simp only [Action.perform_render]
      exact (carries.render here akin).bindEq sound onward
        (fun text => inductionHypothesis text here) together
  | ascend layers akin _ inductionHypothesis =>
      intro state state' together
      simp only [Action.perform_ascend]
      exact (carries.ascend here layers akin).bindEq sound onward
        (fun text => inductionHypothesis text here) together
  | look _ inductionHypothesis =>
      exact fun state state' together =>
        inductionHypothesis _ _ together.place together.place' together.sights here together
  | consult _ inductionHypothesis => exact inductionHypothesis here
  | survey _ inductionHypothesis => exact inductionHypothesis here
  | report told _ inductionHypothesis =>
      intro state state' together
      refine inductionHypothesis here ⟨together.place, together.place', together.sights, ?_⟩
      exact sound.report together.ledgers (together.place ▸ told)
  | @complain _ _ _ _ lookup _ _ _ _ told _ inductionHypothesis =>
      intro state state' together
      simp only [Action.perform]
      refine inductionHypothesis here ?_
      split
      · exact ⟨together.place, together.place', together.sights,
          sound.report together.ledgers (together.place ▸ told)⟩
      · exact together
  | @bindName _ _ _ _ name value _ _ _ inductionHypothesis =>
      intro state state' together
      refine inductionHypothesis here ⟨together.place, together.place', ?_, together.ledgers⟩
      exact { together.sights with scopes := congrArg (·.bind name value) together.sights.scopes }
  | @store _ _ _ _ root path key value _ _ _ inductionHypothesis =>
      intro state state' together
      have same : state.scopes.stored root path key value = state'.scopes.stored root path key value :=
        congrArg (Scopes.stored root path key value) together.sights.scopes
      simp only [Action.perform, State.store_eq, same]
      refine inductionHypothesis _ here ⟨together.place, together.place', ?_, together.ledgers⟩
      exact { together.sights with scopes := rfl }
  | @define _ _ _ _ name _ _ _ _ akin _ inductionHypothesis =>
      intro state state' together
      refine inductionHypothesis here ⟨together.place, together.place', ?_, together.ledgers⟩
      exact { together.sights with macros := together.sights.macros.put name akin }
  | @mount _ _ _ _ name _ _ _ _ akin _ inductionHypothesis =>
      intro state state' together
      refine inductionHypothesis here ⟨together.place, together.place', ?_, together.ledgers⟩
      exact { together.sights with namespaces := together.sights.namespaces.put name akin }
  | @load _ _ _ _ name _ _ _ inductionHypothesis =>
      intro state state' together
      obtain ⟨answers, ledgers⟩ := sound.load name together.ledgers
      have seen (state : State) := State.toView_load kin.environment name state
      refine inductionHypothesis _ _ answers here ⟨?_, ?_, ?_, ledgers⟩
      · exact (congrArg View.place (seen state)).trans together.place
      · exact (congrArg View.place (seen state')).trans together.place'
      · show Sights kin.trees (state.load kin.environment name).2.toView
          (state'.load kin.environment name).2.toView
        rw [seen, seen]
        exact together.sights
  | @within _ _ _ _ _ _ setting _ _ _ next _ akin _ _ innerHypothesis nextHypothesis =>
      intro state state' together
      simp only [Action.perform_within]
      have leaves (middle : State) : Ahead kin.environment middle
          { middle with toView := setting.leave state.toView middle.toView } :=
        .of_seen rfl (by cases setting <;> rfl)
      rcases innerHypothesis (here.enter akin) (together.enter sound akin) with excused |
        ⟨answer, after, answer', after', isAnswer, isAnswer', related, inside⟩
      · exact .inl (excused.bind sound fun isLast => (leaves _).trans (onward (next _) isLast))
      · simp only [isAnswer, isAnswer', Option.bind_some]
        exact nextHypothesis answer answer' related here (together.leave sound akin inside)
  | lost isLenient loses =>
      intro state state' together
      cases lead with
      | second => exact absurd isLenient (strict rfl)
      | first => exact .inl (spoilt_of_loses sound isLenient together.ledgers onward loses)

/-! ### Statements -/

/-- Both renders take a step, or neither does. -/
theorem Together.tick (sound : kin.Sound) {place place' : Place} {state state' : State}
    (together : kin.Together place place' state state') {span span' : Span}
    (at_ : kin.places place.source span span') :
    (state.tick kin.environment.maxSteps span).1 = (state'.tick kin.environment.maxSteps span').1 ∧
      kin.Together place place' (state.tick kin.environment.maxSteps span).2
        (state'.tick kin.environment.maxSteps span').2 := by
  obtain ⟨isPlace, isPlace', sights, ledgers⟩ := together
  have stepped : kin.Together place place' { state with steps := state.steps + 1 }
      { state' with steps := state'.steps + 1 } := ⟨isPlace, isPlace', sights, sound.step ledgers⟩
  have same : state.goesOn kin.environment.maxSteps = state'.goesOn kin.environment.maxSteps := by
    unfold State.goesOn
    rcases sound.pace ledgers with isFree | sameSteps
    · rw [isFree, sights.halted]
      rfl
    · rw [sights.halted, show state.steps = state'.steps from sameSteps]
  rw [State.tick_goesOn, State.tick_goesOn]
  refine ⟨same, ?_⟩
  cases goesOn : state.goesOn kin.environment.maxSteps with
  | true =>
      rw [State.tick_of_goesOn span goesOn, State.tick_of_goesOn span' (same.symm.trans goesOn)]
      exact stepped
  | false =>
      cases isHalted : state.halted with
      | true =>
          rw [State.tick_of_halted _ span isHalted,
            State.tick_of_halted _ span' (sights.halted.symm.trans isHalted)]
          exact ⟨isPlace, isPlace', sights, ledgers⟩
      | false =>
          have isRunning' := sights.halted.symm.trans isHalted
          cases isLimit : kin.environment.maxSteps with
          | none => simp [State.goesOn, isHalted, isLimit] at goesOn
          | some limit =>
              rw [isLimit] at same goesOn
              have stops : ¬state.steps + 1 ≤ limit := by simpa [State.goesOn, isHalted] using goesOn
              have stops' : ¬state'.steps + 1 ≤ limit := by
                simpa [State.goesOn, isRunning'] using same.symm.trans goesOn
              rw [State.tick_of_stops isHalted stops, State.tick_of_stops isRunning' stops']
              have halted : Sights kin.trees { state.toView with halted := true }
                { state'.toView with halted := true } := { sights with halted := rfl }
              exact ⟨isPlace, isPlace', halted, sound.report
                (sound.step ledgers) (sound.told (.budgetExceeded limit) (isPlace ▸ at_))⟩

/-- Statements are rendered abreast if each of them is carried out abreast. -/
theorem abreast_renderAll (sound : kin.Sound) {below below' : Below}
    (advances : below.Advances kin.environment) {place place' : Place}
    (carried : ∀ {node node' : Node}, node.Akin kin.trees place.source node' →
      kin.Abreast lead place place' Eq ((Action.carryOut node).perform kin.environment below)
        ((Action.carryOut node').perform kin.environment below')) {nodes nodes' : List Node}
    (akin : Nodes.Akin kin.trees place.source nodes nodes') :
    kin.Abreast lead place place' Eq (renderAll kin.environment below nodes)
      (renderAll kin.environment below' nodes') := by
  induction nodes generalizing nodes' with
  | nil =>
      cases akin
      exact fun state state' together => .inr ⟨"", state, "", state', rfl, rfl, rfl, together⟩
  | cons node rest inductionHypothesis =>
      cases akin with
      | @cons _ _ node' _ rest' first others =>
          intro state state' together
          obtain ⟨same, ticked⟩ := together.tick sound first.span
          simp only [renderAll_cons, ← same]
          split
          · rcases carried first ticked with excused | ⟨text, middle, _, middle', isText, isText', rfl,
              together⟩
            · refine .inl (excused.bind sound fun {middle last} isLast => ?_)
              obtain ⟨others, areOthers, rfl⟩ := Option.map_eq_some_iff.mp isLast
              exact advances_renderAll advances rest areOthers
            · rcases inductionHypothesis others together with excused | ⟨more, after, _, after',
                isMore, isMore', rfl, together⟩
              · simp only [isText, isText', Option.bind_some, Option.map_eq_bind]
                refine .inl (excused.bind sound fun {middle last} isLast => ?_)
                obtain rfl := Option.some.inj isLast
                exact .refl _
              · refine .inr ⟨text ++ more, after, text ++ more, after', ?_, ?_, rfl, together⟩
                · simp only [isText, isMore, Option.bind_some, Option.map_some]
                · simp only [isText', isMore', Option.bind_some, Option.map_some]
          · exact .inr ⟨"", _, "", _, rfl, rfl, rfl, ticked⟩

end Kinship

end Stencil.Render
