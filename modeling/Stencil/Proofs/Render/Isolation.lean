import Stencil.Proofs.Render.Cache
import Stencil.Proofs.Render.Kindred

/-!
Contract: what a template rendered in place of a tag can see of what is around it.

Owns:
- two renders of the same trees, the first of which may be inside of more templates and more calls;
- the text of a template rendered in place without the context, against its text on its own.

Of what is around it the template sees the macros, the imported macros, and how many loops there
are. Its text depends on nothing else unless there are too many templates or calls around it.

Does not own: what it does to the variables around it (`Stencil.Proofs.Render.Frames`).
-/

set_option autoImplicit false

namespace Stencil.Render

open Stencil.Host (Environment Loaded Shelf)
open Stencil.Report (Diagnostic)
open Stencil.Syntax
open Stencil.Text (Span)

/-! ### Reports of too much -/

/-- Whether a report says that there are too many templates or calls to be inside of. -/
def isNestingReport (report : Diagnostic) : Bool :=
  report.code == .templateCycle ||
    (report.code == .callFailed && report.message == (Problem.recursionLimit callLimit).message)

theorem isNestingReport_ascribe {problem : Problem} (isNesting : problem.isNesting = true)
    (place : Place) (span : Span) :
    isNestingReport (State.ascribe place (problem.at_ span)) = true := by
  have known : isNestingReport (problem.at_ span) = true := by
    cases problem with
    | templateCycle name chain => rfl
    | recursionLimit depth =>
        obtain rfl : depth = callLimit := by simpa [Problem.isNesting] using isNesting
        simp [isNestingReport, Problem.at_, Diagnostic.new, Problem.code]
    | _ => cases isNesting
  unfold State.ascribe
  split
  · split
    · exact known
    · exact known
  · exact known

/-! ### Renders of the same trees -/

namespace Kinship

/-- Two renders of the same trees with reports and steps of their own. Nothing is said about the
first one once it has reported, behind what was reported before, that it is inside of too much. -/
def isolated (environment : Environment) (before : List Diagnostic) : Kinship where
  environment := environment
  trees := ⟨fun _ _ _ => True, fun _ tag tag' => tag = tag'⟩
  told _ _ _ := True
  ledgers ledger ledger' :=
    Shelf.Interchangeable environment ledger.shelf ledger'.shelf ∧ before <+: ledger.problems.toList
  lenient := True
  spoilt problems := ∃ reports, problems = before ++ reports ∧ reports.any isNestingReport = true

variable {environment : Environment} {before : List Diagnostic}

theorem reflexive_isolated : (isolated environment before).Reflexive :=
  ⟨fun _ _ => trivial, fun _ _ => rfl, fun _ _ => trivial⟩

/-- What is loaded from interchangeable shelves is the same, and they stay interchangeable. -/
theorem isolated_load {state state' : State}
    (areAlike : Shelf.Interchangeable environment state.shelf state'.shelf) (name : String) :
    (state.load environment name).1 = (state'.load environment name).1 ∧
      Shelf.Interchangeable environment (state.load environment name).2.shelf
        (state'.load environment name).2.shelf := by
  rw [State.load_answer, State.load_answer, State.shelf_load, State.shelf_load]
  exact ⟨areAlike.fetch_eq name, areAlike.fetch name⟩

theorem sound_isolated (isFree : environment.maxSteps = none) :
    (isolated environment before).Sound where
  told _ _ := trivial
  report {state _ diagnostic _} ledgers _ :=
    have ahead : Ahead environment state (state.report diagnostic) := .report state diagnostic
    ⟨ledgers.1, ledgers.2.trans ahead.problems⟩
  pace _ := .inl isFree
  step ledgers := ledgers
  load {state state'} name ledgers := by
    obtain ⟨areAlike, isBehind⟩ := ledgers
    obtain ⟨same, areAlikeThen⟩ := isolated_load areAlike name
    exact ⟨same ▸ reflexive_isolated.loaded _, areAlikeThen,
      isBehind.trans (Ahead.load environment name state).problems⟩
  enter _ ledgers := ledgers
  leave _ ledgers := ledgers
  spoil _ {ledger _} ledgers problem isNesting place span := by
    obtain ⟨reports, isBehind⟩ := ledgers.2
    refine ⟨reports ++ [State.ascribe place (problem.at_ span)], ?_, ?_⟩
    · rw [← isBehind, List.append_assoc]
    · simp [isNestingReport_ascribe isNesting]
  spoilt {problems more} isPrefix isSpoilt := by
    obtain ⟨rest, rfl⟩ := isPrefix
    obtain ⟨reports, rfl, isNesting⟩ := isSpoilt
    refine ⟨reports ++ rest, List.append_assoc _ _ _, ?_⟩
    rw [List.any_append, isNesting, Bool.true_or]
  script {_ renderer} _ source tag tag' akin := by
    obtain rfl : tag = tag' := akin.seen
    exact reflexive_isolated.script source (renderer tag)

end Kinship

/-! ### Templates rendered in place -/

/-- The start of a render of its own for which macros, imported macros and the number of loops are
those of a state. -/
def State.handedOn (state : State) (shelf : Shelf) : State :=
  { State.initial [] shelf with
    macros := state.macros
    namespaces := state.namespaces
    place := { Place.outside with loopDepth := state.place.loopDepth } }

namespace Kinship

/-- The start of a template rendered in place without the context, and of a render of its own. -/
theorem together_embedded {environment : Environment} {state state' : State} {shelf : Shelf}
    {before : State} (seen : state.toView = before.toView)
    (seen' : state'.toView = (before.handedOn shelf).toView) (isRunning : before.halted = false)
    (areAlike : Shelf.Interchangeable environment state.shelf state'.shelf)
    (isBehind : before.problems.toList <+: state.problems.toList) :
    (isolated environment before.problems.toList).Together
      ((Setting.embedded false).place before.place) (before.handedOn shelf).place
      { state with toView := (Setting.embedded false).enter state.toView } state' := by
  obtain ⟨view, steps, stateShelf, reported, problems⟩ := state
  obtain ⟨view', steps', stateShelf', reported', problems'⟩ := state'
  obtain rfl : view = before.toView := seen
  obtain rfl : view' = (before.handedOn shelf).toView := seen'
  exact ⟨rfl, rfl, reflexive_isolated.sights rfl rfl rfl isRunning, areAlike, isBehind⟩

theorem placeAkin_embedded (environment : Environment) (before : State) (shelf : Shelf) :
    (isolated environment before.problems.toList).PlaceAkin
      ((Setting.embedded false).place before.place) (before.handedOn shelf).place where
  overrides := .nil
  supers := rfl
  callers := .nil
  homes := .nil
  loopDepth := rfl
  loads := nofun
  calls := Nat.zero_le _
  exact := .inl trivial

end Kinship

theorem Action.perform_embedFirst? {environment : Environment} {below : Below} (withContext : Bool)
    (span : Span) {name : String} (rest : List String) {state : State} {loaded : Loaded}
    (isNew : name ∉ state.place.loads) (isLoaded : (state.load environment name).1 = .ok loaded) :
    (embedFirst? withContext span (name :: rest)).perform environment below state =
      ((inSetting (.embedded withContext) (renderTemplate loaded.name loaded.template)).perform
        environment below (state.load environment name).2).map fun answer =>
          (some answer.1, answer.2) := by
  change (view.andThen _).perform environment below state = _
  simp only [view, andThen, perform, if_neg isNew]
  change ((fetch name).andThen _).perform environment below state = _
  simp only [fetch, andThen, perform, isLoaded]
  change ((inSetting _ _).andThen _).perform environment below _ = _
  rw [perform_andThen]
  cases (inSetting (.embedded withContext) (renderTemplate loaded.name loaded.template)).perform
    environment below (state.load environment name).2 <;> rfl

/-- The text that a template rendered in place adds, once its name is known. -/
theorem Action.perform_embed {environment : Environment} {below : Below} {template : Expr}
    (withContext ignoreMissing : Bool) {name : String} {state middle : State} {loaded : Loaded}
    (isName : below.eval template state = some (.text name, middle))
    (isNew : name ∉ middle.place.loads) (isLoaded : (middle.load environment name).1 = .ok loaded) :
    (embed template withContext ignoreMissing).perform environment below state =
      (inSetting (.embedded withContext) (renderTemplate loaded.name loaded.template)).perform
        environment below (middle.load environment name).2 := by
  change ((valueOf template).andThen _).perform environment below state = _
  rw [perform_andThen, perform_valueOf, isName, Option.bind_some]
  change ((embedFirst? withContext template.span [name]).andThen _).perform environment below
    middle = _
  rw [perform_andThen, perform_embedFirst? withContext _ _ isNew isLoaded]
  cases (inSetting (.embedded withContext) (renderTemplate loaded.name loaded.template)).perform
    environment below (middle.load environment name).2 <;> rfl

/-- The text of a template rendered in place is its text on its own with what it sees of what is
around it. -/
theorem renderNamed_handedOn {environment : Environment} (isFree : environment.maxSteps = none)
    {before inside : State} (isRunning : before.halted = false) {name text : String} {loaded : Loaded}
    (isLoaded : (before.load environment name).1 = .ok loaded) {depth : Nat}
    (embedded : (Action.renderTemplate loaded.name loaded.template).perform environment
      (belowDepth environment depth)
      { (before.load environment name).2 with
        toView := (Setting.embedded false).enter (before.load environment name).2.toView } =
          some (text, inside)) {reports : List Diagnostic}
    (areReports : before.problems.toList ++ reports = inside.problems.toList)
    (isClean : reports.any isNestingReport = false) {shelf : Shelf}
    (areAlike : Shelf.Interchangeable environment before.shelf shelf) :
    ∃ last, (Action.renderNamed name).perform environment (belowDepth environment depth)
      (before.handedOn shelf) = some (text, last) := by
  have handedOn : Shelf.Interchangeable environment before.shelf (before.handedOn shelf).shelf :=
    areAlike
  obtain ⟨same, areAlikeThen⟩ := Kinship.isolated_load handedOn name
  let kin := Kinship.isolated environment before.problems.toList
  have here : kin.Here ((Setting.embedded false).place before.place) (before.handedOn shelf).place :=
    ⟨Kinship.sound_isolated isFree, Kinship.placeAkin_embedded environment before shelf⟩
  have alike : kin.Alike ((Setting.embedded false).place before.place)
      (before.handedOn shelf).place Eq (Action.renderTemplate loaded.name loaded.template)
      (Action.renderTemplate loaded.name loaded.template) :=
    Kinship.renderTemplate loaded.name (Kinship.reflexive_isolated.nodes loaded.name _)
  have together := Kinship.together_embedded (State.toView_load environment name before)
    (State.toView_load environment name (before.handedOn shelf)) isRunning areAlikeThen
    (Ahead.load environment name before).problems
  rcases here.abreast_belowDepth alike depth together with
    excused | ⟨answer, answered, _, last, isAnswer, isLast, rfl, _⟩
  · obtain ⟨others, areOthers, isNesting⟩ := excused text inside embedded
    obtain rfl := List.append_cancel_left (areReports.trans areOthers)
    cases isClean.symm.trans isNesting
  · obtain ⟨rfl, rfl⟩ := Prod.mk.inj (Option.some.inj (isAnswer.symm.trans embedded))
    exact ⟨last, (perform_renderNamed (same.symm.trans isLoaded)).trans isLast⟩

/-- A template rendered in place without the context, in any state that a render without a limit on
steps can reach, has the text that it has on its own with nothing but the macros, the imported macros
and the number of loops around it, unless its reports say that there are too many templates or calls.
Where there are no macros, no imported macros and no loops that is its text with an empty context. On
its own it is rendered with the same shelf or, if the loader never changes its answers, with any
coherent one in place of a coherent one. -/
theorem include_isolated {environment : Environment} (isFree : environment.maxSteps = none)
    {task : Task} {state middle after : State} (reached : Reaches environment task state)
    {depth : Nat} {template : Expr} {name text : String} (ignoreMissing : Bool) (span : Span)
    (isName : (belowDepth environment depth).eval template state = some (.text name, middle))
    {loaded : Loaded} (isFound : (Shelf.fetch environment name middle.shelf).1 = .ok loaded)
    (isNew : name ∉ state.place.loads)
    (embedded : (Action.carryOut (.embed template false ignoreMissing span)).perform environment
      (belowDepth environment depth) state = some (text, after)) :
    ∃ reports, after.problems.toList = middle.problems.toList ++ reports ∧
      (reports.any isNestingReport = false → ∀ shelf : Shelf,
          Shelf.Interchangeable environment middle.shelf shelf →
        (∃ last, (Action.renderNamed name).perform environment (belowDepth environment depth)
          (middle.handedOn shelf) = some (text, last)) ∧
        (middle.macros = [] → middle.namespaces = [] → middle.place.loopDepth = 0 →
          (renderNamedWithin depth environment name [] shelf).map Outcome.text = some text)) := by
  have advances := advances_belowDepth environment depth
  have isRunning : middle.halted = false :=
    ((advances.eval template isName).halted isFree).trans (reached.running isFree)
  have isLoaded : (middle.load environment name).1 = .ok loaded :=
    (State.load_answer environment name middle).trans isFound
  have isNew' : name ∉ middle.place.loads := by
    rw [(balanced_eval depth isName).place]
    exact isNew
  change (Action.embed template false ignoreMissing).perform environment
    (belowDepth environment depth) state = _ at embedded
  rw [Action.perform_embed false ignoreMissing isName isNew' isLoaded, Action.inSetting, Action.perform_within] at embedded
  obtain ⟨⟨inner, inside⟩, isInner, isAfter⟩ := Option.bind_eq_some_iff.mp embedded
  obtain ⟨rfl, rfl⟩ := Prod.mk.inj (Option.some.inj isAfter)
  obtain ⟨reports, areReports⟩ := (Ahead.load environment name middle).problems.trans
    (Action.advances_perform advances _ isInner).problems
  refine ⟨reports, areReports.symm, fun isClean shelf areAlike => ?_⟩
  have alone := renderNamed_handedOn isFree isRunning isLoaded isInner areReports isClean areAlike
  refine ⟨alone, fun noMacros noNamespaces noLoops => ?_⟩
  obtain ⟨last, isLast⟩ := alone
  have isInitial : middle.handedOn shelf = .initial [] shelf := by
    unfold State.handedOn
    rw [noMacros, noNamespaces, noLoops]
    rfl
  rw [isInitial] at isLast
  rw [renderNamedWithin, isLast]
  rfl

/-- An environment with templates that print a variable and call a macro. -/
def curious : Environment :=
  Environment.empty.withLoader
    (.ofTable [("shown", "[\x7b\x7b x \x7d\x7d]"), ("called", "\x7b\x7b m() \x7d\x7d")])

/-- A template rendered in place without the context. -/
def embedding (name : String) : Node :=
  .embed (.literal (.text name) default) false false default

/-- A render of a page behind a statement. -/
def State.onPage : State :=
  { State.initial [] .empty with
    place := { Place.outside with loads := ["page"], templates := ["page"] }
    steps := 2 }

/-- A variable around a template rendered in place is not there inside of it. -/
theorem include_isolated_variable :
    let state := { State.onPage with scopes := .root [("x", .int 1)] }
    Reaches curious (.action (Action.carryOut (embedding "shown"))) state ∧
      (Shelf.fetch curious "shown" state.shelf).1 =
        .ok (Shelf.loaded curious "shown" "[\x7b\x7b x \x7d\x7d]") ∧
      "shown" ∉ state.place.loads ∧
      (belowDepth curious 4).eval (.literal (.text "shown") default) state =
        some (.text "shown", state) ∧
      ((Action.carryOut (embedding "shown")).perform curious (belowDepth curious 4) state).map
        (fun last => (last.1, last.2.problems.toList)) = some ("[]", []) ∧
      (renderNamedWithin 4 curious "shown" [] .empty).map Outcome.text = some "[]" := by
  intro state
  let assign : Node := .assign (.name "x" default) (.literal (.int 1) default) default
  have start : Reaches curious _ _ :=
    .template "page" ⟨none, [assign, embedding "shown"], default⟩ [] .empty
  have defined := Reaches.next 0 (Reaches.within start) rfl
  have reached : Reaches curious (.action (Action.carryOut (embedding "shown"))) state :=
    Reaches.statement (Reaches.rest 1 (Reaches.render defined) rfl rfl) rfl
  have isFound : (Shelf.fetch curious "shown" state.shelf).1 =
      .ok (Shelf.loaded curious "shown" "[\x7b\x7b x \x7d\x7d]") := rfl
  have isNew : "shown" ∉ state.place.loads := by decide
  have embedded : ((Action.carryOut (embedding "shown")).perform curious (belowDepth curious 4)
      state).map (fun last => (last.1, last.2.problems.toList)) = some ("[]", []) := by
    decide +kernel
  refine ⟨reached, isFound, isNew, rfl, embedded, ?_⟩
  obtain ⟨⟨text, after⟩, isEmbedded, isShown⟩ := Option.map_eq_some_iff.mp embedded
  obtain ⟨rfl, noProblems⟩ := Prod.mk.inj isShown
  obtain ⟨reports, areReports, alone⟩ :=
    include_isolated rfl reached false default rfl isFound isNew isEmbedded
  obtain rfl : [] = reports := noProblems.symm.trans areReports
  exact (alone rfl .empty (.inl rfl)).2 rfl rfl rfl

/-- A macro around a template rendered in place is there inside of it, and not on its own. -/
theorem include_leaks :
    let definition : MacroDefinition := ⟨"m", [], [.text "leak" default], default⟩
    let state := { State.onPage with
      macros := [("m", ⟨definition, [("m", definition)]⟩)] }
    curious.maxSteps = none ∧
      Reaches curious (.action (Action.carryOut (embedding "called"))) state ∧
      curious.Gives "called" "\x7b\x7b m() \x7d\x7d" ∧ "called" ∉ state.place.loads ∧
      ((Action.carryOut (embedding "called")).perform curious (belowDepth curious 6) state).map
        (fun last => (last.1, last.2.problems.toList)) = some ("leak", []) ∧
      (renderNamedWithin 6 curious "called" [] .empty).map
        (fun outcome => (outcome.text, outcome.problems)) = some ("", []) := by
  intro definition state
  let define : Node := .define "m" [] definition.body default
  have start : Reaches curious _ _ :=
    .template "page" ⟨none, [define, embedding "called"], default⟩ [] .empty
  have defined := Reaches.next 0 (Reaches.within start) rfl
  have reached : Reaches curious (.action (Action.carryOut (embedding "called"))) state :=
    Reaches.statement (Reaches.rest 1 (Reaches.render defined) rfl rfl) rfl
  have steady : curious.Steady := Environment.empty.steady_withLoader _
  exact ⟨rfl, reached, steady.gives ⟨[], by decide⟩, by decide, by decide +kernel, by decide +kernel⟩

end Stencil.Render
